import ListMode.Proofs.Merger.Conservation

/-!
# Buffers and their hits are interchangeable

A merger treats a buffer as the hits it decodes to, and a buffer that it cannot decode as a spill
without hits. Apart from the count of such buffers its state is a function of the decoded spills:
`forgiven` forgets that count and commutes with every step.
-/

namespace ListMode

/-- The hits that a buffer from `source` has when the buffers of `sources` hold list-mode records.
`none` if nobody knows its format, or if it is not made of whole records. -/
def Record.decodeFrom? (sources : List String) (source : Option String) (buffer : List UInt8) :
    Option (List Hit) :=
  if source.getD "" ∈ sources then Record.decode? buffer else none

namespace Spill

/-- The spill with its hits in the place of a buffer. -/
def decodedFrom (sources : List String) (s : Spill) : Spill :=
  match s.payload with
  | .events _ => s
  | .raw buffer =>
    { s with payload := .events ((Record.decodeFrom? sources s.source buffer).getD []) }

/-- The spill is a buffer that yields no hits because it cannot be decoded. -/
def isUndecodable (sources : List String) (s : Spill) : Bool :=
  match s.payload with
  | .events _ => false
  | .raw buffer => (Record.decodeFrom? sources s.source buffer).isNone

end Spill

namespace Merger

/-- The merger decodes list-mode records from `sources`, and nothing else. -/
def ReadsRecords (m : Merger) (sources : List String) : Prop :=
  ∀ source, m.decoders.get? source = if source ∈ sources then some Record.decoder else none

theorem readsRecords_new (k : Sink) : (new k).ReadsRecords [] := fun _ => rfl

theorem ReadsRecords.withDecoder {m : Merger} {sources : List String} (h : m.ReadsRecords sources)
    (source : String) : (m.withDecoder source Record.decoder).ReadsRecords (source :: sources) := by
  intro source'
  refine (KeyMap.get?_insert m.decoders source source' Record.decoder).trans ?_
  rw [h source']
  by_cases heq : source = source'
  · simp [heq]
  · simp [heq, Ne.symm heq]

theorem ReadsRecords.withChannels {m : Merger} {sources : List String} (h : m.ReadsRecords sources)
    (channels : List Channel) : (m.withChannels channels).ReadsRecords sources := h

section

variable {m : Merger} {sources : List String}

theorem ReadsRecords.bind_decode? (h : m.ReadsRecords sources) (source : Option String)
    (buffer : List UInt8) :
    (m.decoders.get? (source.getD "")).bind (·.decode? buffer) =
      Record.decodeFrom? sources source buffer := by
  rw [h, Record.decodeFrom?]
  split
  · rfl
  · rfl

theorem ReadsRecords.decode_eq (h : m.ReadsRecords sources) (s : Spill) :
    m.decode s = ((s.decodedFrom sources).hits, if s.isUndecodable sources then 1 else 0) := by
  unfold decode Spill.decodedFrom Spill.isUndecodable
  cases hp : s.payload with
  | events hits => simp [Spill.hits, hp, Payload.hits]
  | raw buffer =>
    dsimp only
    rw [h.bind_decode?]
    rcases Option.eq_none_or_eq_some (Record.decodeFrom? sources s.source buffer) with hd | ⟨hits, hd⟩
    · simp [hd, Spill.hits, Payload.hits]
    · simp [hd, Spill.hits, Payload.hits]

/-- A decoded spill is decoded without an error. -/
theorem decode_decodedFrom (m : Merger) (s : Spill) :
    m.decode (s.decodedFrom sources) = ((s.decodedFrom sources).hits, 0) := by
  unfold decode Spill.decodedFrom
  cases hp : s.payload with
  | events hits => simp [Spill.hits, hp, Payload.hits]
  | raw buffer => rfl

/-- Decoding changes nothing but the payload. -/
theorem withoutHits_decodedFrom (s : Spill) :
    ({ s.decodedFrom sources with payload := .events [] } : Spill) =
      { s with payload := .events [] } := by
  unfold Spill.decodedFrom
  split
  · rfl
  · rfl

theorem stats_decodedFrom (s : Spill) : (s.decodedFrom sources).stats = s.stats := by
  unfold Spill.decodedFrom
  split
  · rfl
  · rfl

end

/-! ## Forgetting what could not be decoded -/

/-- The merger as if it had decoded every buffer. -/
def forgiven (m : Merger) : Merger := { m with report.decodeErrors := 0 }

section

variable {m : Merger} {sources : List String}

theorem forgiven_bufferAll (m : Merger) (seq : Nat) (hits : List Hit) :
    (m.bufferAll seq hits).forgiven = m.forgiven.bufferAll seq hits := by
  induction hits generalizing m with
  | nil => rfl
  | cons hit hits ih =>
    rw [bufferAll_cons, bufferAll_cons, ih]
    rfl

/-- What is received is what the buffer decodes to. -/
theorem forgiven_receive (h : m.ReadsRecords sources) (s : Spill) :
    (m.receive s).forgiven = m.forgiven.receive (s.decodedFrom sources) := by
  have hnew : m.decoded s = (s.decodedFrom sources).hits := congrArg Prod.fst (h.decode_eq s)
  have hold : m.forgiven.decoded (s.decodedFrom sources) = (s.decodedFrom sources).hits :=
    congrArg Prod.fst (decode_decodedFrom m.forgiven s)
  have hentry : m.forgiven.entry (s.decodedFrom sources) = m.entry s := by
    rw [entry, entry, hnew, hold, withoutHits_decodedFrom, stats_decodedFrom]
  have hcounting : m.forgiven.counting (s.decodedFrom sources) = (m.counting s).forgiven := by
    rw [counting, decode_decodedFrom]
    rfl
  rw [receive_eq, receive_eq, hentry, hold, hcounting, stats_decodedFrom, ← hnew]
  have hbuffer := forgiven_bufferAll (m.counting s) m.nextSeq (m.decoded s)
  rw [show m.forgiven.nextSeq = m.nextSeq from rfl, ← hbuffer]
  rfl

theorem forgiven_emit? (m : Merger) : m.forgiven.emit? = m.emit?.map forgiven := by
  have hheld : m.forgiven.isHeldUp = m.isHeldUp := rfl
  unfold emit?
  rw [hheld]
  split
  · rfl
  · dsimp only [forgiven]
    split
    · rfl
    · split
      · rfl
      · split
        · rfl
        · rfl

theorem forgiven_emitUpTo (n : Nat) (m : Merger) :
    (emitUpTo n m).forgiven = emitUpTo n m.forgiven := by
  induction n generalizing m with
  | zero => rfl
  | succ n ih =>
    rw [emitUpTo, emitUpTo, forgiven_emit?]
    cases m.emit? with
    | none => rfl
    | some m' => exact ih m'

theorem forgiven_merge (m : Merger) : m.merge.forgiven = m.forgiven.merge := forgiven_emitUpTo _ m

theorem forgiven_deliver (m : Merger) (origin : Spill) :
    (m.deliver origin).forgiven = m.forgiven.deliver origin := by
  have hparcel : m.forgiven.parcel origin = m.parcel origin := rfl
  unfold deliver
  rw [hparcel]
  dsimp only
  split
  · rfl
  · rfl

theorem forgiven_drain (m : Merger) : m.drain.forgiven = m.forgiven.drain := by
  rw [drain_eq, drain_eq, show m.forgiven.leaving = m.leaving from rfl]
  generalize m.leaving = entries
  induction entries generalizing m with
  | nil => rfl
  | cons x rest ih =>
    rw [List.foldl_cons, List.foldl_cons, ih]
    exact congrArg (rest.foldl release) (forgiven_deliver _ x.2.spill)

theorem forgiven_push (h : m.ReadsRecords sources) (s : Spill) :
    (m.push s).forgiven = m.forgiven.push (s.decodedFrom sources) := by
  rw [push, push, forgiven_drain, forgiven_merge, forgiven_receive h]

theorem forgiven_finish (m : Merger) : m.finish.forgiven = m.forgiven.finish := by
  have hexhaust : m.exhaust.forgiven = m.forgiven.exhaust := by
    have hwound : m.forgiven.wound = m.wound.forgiven := by
      rw [wound, wound, forgiven_drain, forgiven_merge]
      rfl
    rw [exhaust_eq, exhaust_eq, hwound, show m.wound.forgiven.output = m.wound.output from rfl]
    split
    · rfl
    · exact forgiven_deliver _ _
  rw [finish, finish, ← hexhaust]
  rfl

end

/-! ## Two runs -/

section

variable {m : Merger} {sources : List String}

/-- The run over the decoded spills is the run over the spills, its decode errors forgotten. -/
theorem ReadsRecords.forgiven_pushAll (h : m.ReadsRecords sources) (hm : m.Fresh)
    (spills : List Spill) :
    (m.pushAll spills).forgiven = m.forgiven.pushAll (spills.map (·.decodedFrom sources)) := by
  induction spills using List.reverseRecOn with
  | nil => rfl
  | append_singleton past s ih =>
    have hdecoders : (m.pushAll past).ReadsRecords sources := by
      intro source
      rw [(hm.tracks_pushAll past).decoders_eq, h source]
    rw [pushAll_append, forgiven_push hdecoders, ih, List.map_append, List.map_singleton,
      pushAll_append]

theorem Fresh.forgiven_eq (hm : m.Fresh) : m.forgiven = m := by
  have herrors : m.report.decodeErrors = 0 := by rw [hm.report_eq]
  rw [forgiven, ← herrors]

/-- Buffers that cannot be decoded are counted, each once. -/
theorem ReadsRecords.decodeErrors_eq {m' : Merger} {spills : List Spill}
    (h : m.ReadsRecords sources) (ht : m.Tracks spills m') :
    m'.report.decodeErrors = spills.countP (·.isUndecodable sources) := by
  rw [ht.decodeErrors_eq]
  clear ht
  induction spills with
  | nil => rfl
  | cons s rest ih =>
    rw [List.map_cons, List.sum_cons, ih, h.decode_eq, List.countP_cons, Nat.add_comm]

end

/-- Whoever watches the sink, the buffered hits, the spills in flight and the report cannot tell the
mergers apart, unless by the decode errors. -/
structure Alike (m m' : Merger) : Prop where
  sink_eq : m'.sink = m.sink
  buffered_eq : m'.buffered = m.buffered
  inFlight_eq : m'.inFlight.size = m.inFlight.size
  spillsIn_eq : m'.report.spillsIn = m.report.spillsIn
  spillsOut_eq : m'.report.spillsOut = m.report.spillsOut
  eventsOut_eq : m'.report.eventsOut = m.report.eventsOut

theorem alike_forgiven (m : Merger) : m.Alike m.forgiven := ⟨rfl, rfl, rfl, rfl, rfl, rfl⟩

/-- A producer may hand over its buffers or the hits in them: after every push and at the end the
same has been delivered in the same order, and the merger holds back the same. A buffer that cannot
be decoded takes the place of a spill without hits. The decode errors are the number of these
buffers, and without buffers there are none. -/
theorem raw_decoded_interchangeable {m : Merger} {sources : List String} (hm : m.Fresh)
    (h : m.ReadsRecords sources) (spills : List Spill) :
    let decoded := spills.map (·.decodedFrom sources)
    (∀ n, (m.pushAll (spills.take n)).Alike (m.pushAll (decoded.take n))) ∧
    (m.pushAll spills).finish.Alike (m.pushAll decoded).finish ∧
    (m.pushAll spills).report.decodeErrors = spills.countP (·.isUndecodable sources) ∧
    (m.pushAll spills).finish.report.decodeErrors = spills.countP (·.isUndecodable sources) ∧
    (m.pushAll decoded).report.decodeErrors = 0 ∧
    (m.pushAll decoded).finish.report.decodeErrors = 0 := by
  intro decoded
  have hruns : ∀ spills : List Spill,
      m.pushAll (spills.map (·.decodedFrom sources)) = (m.pushAll spills).forgiven := by
    intro spills
    rw [h.forgiven_pushAll hm, hm.forgiven_eq]
  have hfinish : (m.pushAll decoded).finish = (m.pushAll spills).finish.forgiven := by
    rw [hruns spills, forgiven_finish]
  have ht := hm.tracks_pushAll spills
  obtain ⟨hend, -, -⟩ := ht.exhaust (hm.coherent.pushAll spills)
  have herrors := h.decodeErrors_eq hend
  refine ⟨fun n => ?_, ?_, h.decodeErrors_eq ht, herrors, ?_, ?_⟩
  · rw [← List.map_take, hruns]
    exact alike_forgiven _
  · rw [hfinish]
    exact alike_forgiven _
  · rw [hruns spills]
    rfl
  · rw [hfinish]
    rfl

/-- A whole record, a truncated one and one from a source without decoder, after each other. -/
theorem raw_decoded_interchangeable_mixed :
    let hit : Hit := ⟨0, 20, 7, .empty⟩
    let m := ((new .empty).withDecoder "left" Record.decoder).withChannels [0]
    let spills : List Spill := [.raw "left" (Record.encode [hit]), .raw "left" [1, 2],
      .raw "right" (Record.encode [hit])]
    let decoded : List Spill := [.events "left" [hit], .events "left" [], .events "right" []]
    m.Fresh ∧ m.ReadsRecords ["left"] ∧
      (m.pushAll decoded).finish.sink = (m.pushAll spills).finish.sink ∧
      (m.pushAll spills).finish.report.decodeErrors = 2 := by
  intro hit m spills decoded
  have hm : m.Fresh := ((fresh_new .empty).withDecoder "left" Record.decoder).withChannels [0]
  have h : m.ReadsRecords ["left"] :=
    ((readsRecords_new .empty).withDecoder "left").withChannels [0]
  have hwhole : Record.decode? (Record.encode [hit]) = some [hit] := by decide
  have hcut : Record.decode? [1, 2] = none := by decide
  have hdecoded : spills.map (·.decodedFrom ["left"]) = decoded := by
    simp [spills, decoded, Spill.raw, Spill.events, Spill.decodedFrom, Record.decodeFrom?, hwhole,
      hcut]
  have hcount : spills.countP (·.isUndecodable ["left"]) = 2 := by
    simp [spills, Spill.raw, Spill.isUndecodable, Record.decodeFrom?, hwhole, hcut]
  obtain ⟨-, hend, -, herrors, -, -⟩ := raw_decoded_interchangeable hm h spills
  rw [hdecoded] at hend
  exact ⟨hm, h, hend.sink_eq, herrors.trans hcount⟩

end Merger

end ListMode
