import Mathlib.Algebra.GroupWithZero.Nat
import ListMode.Proofs.Merger.Coherence

/-!
# Every hit is somewhere

`Tracks` relates a merger to what has been pushed into it. Channel by channel, the hits handed to
the sink, those emitted and not handed over, and those buffered are together the hits that arrived,
in the order of their arrival. Nothing is assumed about the spills. The report counts what was
handed over, and what is in flight of a spill is what was pushed.
-/

namespace ListMode.Merger

/-- A merger that has been set up and has received nothing. The lanes it waits for are open. -/
structure Fresh (m : Merger) : Prop where
  inFlight_eq : m.inFlight = ∅
  nextSeq_eq : m.nextSeq = 0
  lanes_eq : ∀ c l, m.lanes.get? c = some l → l = .new
  fronts_eq : m.fronts = []
  output_eq : m.output = []
  closed_eq : m.closed = false
  report_eq : m.report = ⟨0, 0, 0, 0⟩

theorem fresh_new (k : Sink) : (new k).Fresh :=
  ⟨rfl, rfl, fun _ _ h => (nomatch h), rfl, rfl, rfl, rfl⟩

theorem Fresh.withDecoder {m : Merger} (h : m.Fresh) (source : String) (decoder : Decoder) :
    (m.withDecoder source decoder).Fresh :=
  ⟨h.inFlight_eq, h.nextSeq_eq, h.lanes_eq, h.fronts_eq, h.output_eq, h.closed_eq, h.report_eq⟩

theorem Fresh.withChannels {m : Merger} (h : m.Fresh) (channels : List Channel) :
    (m.withChannels channels).Fresh := by
  refine ⟨h.inFlight_eq, h.nextSeq_eq, ?_, h.fronts_eq, h.output_eq, h.closed_eq, h.report_eq⟩
  have key : ∀ (channels : List Channel) (lanes : KeyMap Channel Lane),
      (∀ c l, lanes.get? c = some l → l = .new) →
      ∀ c l, (channels.foldl (fun lanes c => lanes.insertIfNew c Lane.new) lanes).get? c = some l →
        l = .new := by
    intro channels
    induction channels with
    | nil => exact fun _ hl => hl
    | cons c' rest ih =>
      intro lanes hl
      refine ih _ fun c l hc => ?_
      rw [KeyMap.get?_insertIfNew] at hc
      split at hc
      · cases hg : lanes.get? c' with
        | none => simpa [hg] using hc.symm
        | some l' =>
          rw [hg] at hc
          exact hl c' l (hg.trans hc)
      · exact hl c l hc
  exact key channels m.lanes h.lanes_eq

theorem Fresh.lane_eq {m : Merger} (h : m.Fresh) (c : Channel) : m.lane c = [] := by
  unfold lane hitsAt
  cases hc : m.lanes.get? c with
  | none => rfl
  | some l =>
    rw [h.lanes_eq c l hc]
    rfl

theorem Fresh.laned_eq {m : Merger} (h : m.Fresh) : laned m.lanes = [] := by
  refine List.eq_nil_iff_forall_not_mem.mpr fun x hx => ?_
  obtain ⟨c, hx⟩ := mem_laned.mp hx
  rw [← lane, h.lane_eq] at hx
  cases hx

theorem Fresh.coherent {m : Merger} (h : m.Fresh) : m.Coherent := by
  have hf : frontsOf m.lanes = [] := by
    refine List.eq_nil_iff_forall_not_mem.mpr fun k hk => ?_
    obtain ⟨c, hk⟩ := mem_frontsOf.mp hk
    rw [← lane, h.lane_eq] at hk
    cases hk
  refine ⟨⟨?_, ?_, ?_⟩, ?_, ?_, ?_⟩
  · intro c x hx
    rw [h.lane_eq] at hx
    cases hx
  · rw [h.fronts_eq, hf]
  · rw [h.fronts_eq]
    exact .nil
  · intro seq e he
    rw [h.inFlight_eq] at he
    cases he
  · intro seq hs
    rw [tags, h.laned_eq] at hs
    cases hs
  · intro seq hs
    rw [h.inFlight_eq] at hs
    cases hs

/-! ## What arrived and what was handed over -/

/-- Hits of `spills` in the order of their arrival, as the merger decodes them. -/
def arrivals (m : Merger) (spills : List Spill) : List Hit := spills.flatMap m.decoded

/-- The same hits, each with the number of its spill. -/
def tagged (m : Merger) (spills : List Spill) : List (Hit × Nat) :=
  spills.zipIdx.flatMap fun s => (m.decoded s.1).map (·, s.2)

/-- Spills handed to the sink since the merger was `m₀`. -/
def handedSince (m m₀ : Merger) : List Spill :=
  m.sink.archive.spills.drop m₀.sink.archive.spills.length

/-- Hits handed to the sink since the merger was `m₀`. -/
def deliveredSince (m m₀ : Merger) : List Hit := (m.handedSince m₀).flatMap Spill.hits

/-- Hits emitted since the merger was `m₀`, handed over or not. -/
def emittedSince (m m₀ : Merger) : List Hit := m.deliveredSince m₀ ++ m.output

theorem arrivals_append (m : Merger) (past future : List Spill) :
    m.arrivals (past ++ future) = m.arrivals past ++ m.arrivals future := List.flatMap_append

theorem arrivals_singleton (m : Merger) (s : Spill) : m.arrivals [s] = m.decoded s :=
  List.flatMap_singleton ..

theorem tagged_append (m : Merger) (past : List Spill) (s : Spill) :
    m.tagged (past ++ [s]) = m.tagged past ++ (m.decoded s).map (·, past.length) := by
  simp [tagged, List.zipIdx_append]

theorem map_tagged (m : Merger) (spills : List Spill) :
    (m.tagged spills).map (·.1) = m.arrivals spills := by
  have key : ∀ (spills : List Spill) (k : Nat),
      ((spills.zipIdx k).flatMap fun s => (m.decoded s.1).map (·, s.2)).map Prod.fst =
        m.arrivals spills := by
    intro spills
    induction spills with
    | nil => exact fun _ => rfl
    | cons s rest ih =>
      intro k
      rw [List.zipIdx_cons, List.flatMap_cons, List.map_append, ih, List.map_map]
      simp [arrivals, Function.comp_def]
  exact key spills 0

theorem mem_tagged {m : Merger} {spills : List Spill} {x : Hit × Nat} :
    x ∈ m.tagged spills ↔ ∃ s, spills[x.2]? = some s ∧ x.1 ∈ m.decoded s := by
  simp only [tagged, List.mem_flatMap, List.mem_map, Prod.exists]
  constructor
  · rintro ⟨s, i, hs, h, hh, rfl⟩
    exact ⟨s, List.mem_zipIdx_iff_getElem?.mp hs, hh⟩
  · rintro ⟨s, hs, hh⟩
    exact ⟨s, x.2, List.mem_zipIdx_iff_getElem?.mpr hs, x.1, hh, rfl⟩

theorem tagged_take_initial (m : Merger) (spills : List Spill) (n : Nat) :
    m.tagged (spills.take n) <+: m.tagged spills := by
  have h := List.take_append_drop n spills
  rw [tagged, tagged]
  conv => rhs; rw [← h, List.zipIdx_append, List.flatMap_append]
  exact List.prefix_append _ _

/-- A merger that was `m₀` has received `past`. -/
structure Tracks (m₀ : Merger) (past : List Spill) (m : Merger) : Prop where
  decoders_eq : m.decoders = m₀.decoders
  nextSeq_eq : m.nextSeq = past.length
  sink_initial : m₀.sink.archive.spills <+: m.sink.archive.spills
  fifo : ∀ c, Hit.onChannel c (m.emittedSince m₀) ++ (m.lane c).map (·.1) =
    Hit.onChannel c (m₀.arrivals past)
  lane_suffix : ∀ c, m.lane c <:+ (m₀.tagged past).filter (·.1.channel = c)
  entry_eq : ∀ seq e, m.inFlight.get? seq = some e → ∃ s, past[seq]? = some s ∧
    e.spill = { s with payload := .events [] } ∧
    e.channels = (m₀.decoded s).map (·.channel) ++ s.stats.keys
  spillsIn_eq : m.report.spillsIn = past.length
  eventsOut_eq : m.report.eventsOut = (m.deliveredSince m₀).length
  decodeErrors_eq : m.report.decodeErrors = (past.map fun s => (m₀.decode s).2).sum

theorem Fresh.tracks {m : Merger} (h : m.Fresh) : m.Tracks [] m := by
  have hd : m.deliveredSince m = [] := by simp [deliveredSince, handedSince]
  refine ⟨rfl, h.nextSeq_eq, List.prefix_refl _, ?_, ?_, ?_, ?_, ?_, ?_⟩
  · intro c
    rw [emittedSince, hd, h.output_eq, h.lane_eq]
    rfl
  · intro c
    rw [h.lane_eq]
    exact List.nil_suffix
  · intro seq e he
    rw [h.inFlight_eq] at he
    cases he
  · rw [h.report_eq]
    rfl
  · rw [h.report_eq, hd]
    rfl
  · rw [h.report_eq]
    rfl

/-! ## Each step keeps track -/

section

variable {m₀ m m' : Merger} {past : List Spill}

theorem deliveredSince_congr (h : m'.sink = m.sink) :
    m'.deliveredSince m₀ = m.deliveredSince m₀ := by
  rw [deliveredSince, deliveredSince, handedSince, handedSince, h]

/-- One emission appends its hit to what has been emitted. -/
theorem Emission.emittedSince_eq {hit : Hit} {seq : Nat} (he : Emission m hit seq m') :
    m'.emittedSince m₀ = m.emittedSince m₀ ++ [hit] := by
  rw [emittedSince, emittedSince, deliveredSince_congr he.sink_eq, he.output_eq,
    List.append_assoc]

/-- Receiving a spill emits nothing. -/
theorem emittedSince_receive (s : Spill) :
    (m.receive s).emittedSince m₀ = m.emittedSince m₀ := by
  obtain ⟨hsink, -, -, hout, -⟩ := receive_fields m s
  rw [emittedSince, emittedSince, deliveredSince_congr hsink, hout]

theorem Tracks.receive (ht : m₀.Tracks past m) (s : Spill) :
    m₀.Tracks (past ++ [s]) (m.receive s) := by
  obtain ⟨hsink, hdec, hnext, hout, -, hrep, hfl⟩ := receive_fields m s
  have hdec' : m.decoded s = m₀.decoded s := decoded_congr ht.decoders_eq s
  have hdel : (m.receive s).deliveredSince m₀ = m.deliveredSince m₀ := deliveredSince_congr hsink
  refine ⟨hdec.trans ht.decoders_eq, ?_, ?_, ?_, ?_, ?_, ?_, ?_, ?_⟩
  · rw [hnext, ht.nextSeq_eq, List.length_append, List.length_singleton]
  · rw [hsink]
    exact ht.sink_initial
  · intro c
    have hf := ht.fifo c
    rw [emittedSince] at hf ⊢
    rw [hdel, hout, lane_receive, List.map_append, List.map_map, ← List.append_assoc, hf,
      arrivals_append, arrivals_singleton, Hit.onChannel_append, hdec']
    simp [Function.comp_def]
  · intro c
    rw [lane_receive, tagged_append, List.filter_append, ht.nextSeq_eq, hdec']
    obtain ⟨before, hb⟩ := ht.lane_suffix c
    refine ⟨before, ?_⟩
    rw [← hb, List.append_assoc, List.filter_map]
    rfl
  · intro seq e he
    rw [hfl, KeyMap.get?_insert] at he
    split at he
    · rename_i hs
      obtain rfl := Option.some.inj he
      refine ⟨s, ?_, rfl, ?_⟩
      · rw [← hs, ht.nextSeq_eq, List.getElem?_concat_length]
      · rw [entry, hdec']
    · obtain ⟨s', hs', hsp, hch⟩ := ht.entry_eq seq e he
      have hlt := (List.getElem?_eq_some_iff.mp hs').1
      exact ⟨s', by rw [List.getElem?_append_left hlt, hs'], hsp, hch⟩
  · rw [hrep, List.length_append, List.length_singleton, ← ht.spillsIn_eq]
    rfl
  · rw [hrep, hdel, ← ht.eventsOut_eq]
    rfl
  · rw [hrep, List.map_append, List.sum_append, ← ht.decodeErrors_eq, List.map_singleton,
      List.sum_singleton, ← decode_congr ht.decoders_eq s]
    rfl

theorem Tracks.emission {hit : Hit} {seq : Nat} (ht : m₀.Tracks past m)
    (he : Emission m hit seq m') : m₀.Tracks past m' := by
  have hdel : m'.deliveredSince m₀ = m.deliveredSince m₀ := deliveredSince_congr he.sink_eq
  refine ⟨he.decoders_eq.trans ht.decoders_eq, he.nextSeq_eq.trans ht.nextSeq_eq,
    ?_, ?_, ?_, ?_, ?_, ?_, ?_⟩
  · rw [he.sink_eq]
    exact ht.sink_initial
  · intro c
    rw [← ht.fifo c, emittedSince, emittedSince, hdel, he.output_eq, ← List.append_assoc,
      Hit.onChannel_append, List.append_assoc]
    congr 1
    by_cases hch : hit.channel = c
    · subst hch
      rw [he.lane_eq]
      simp [Hit.onChannel_cons]
    · rw [he.lane_ne c (Ne.symm hch)]
      simp [Hit.onChannel_cons, hch]
  · intro c
    refine List.IsSuffix.trans ?_ (ht.lane_suffix c)
    by_cases hch : c = hit.channel
    · subst hch
      rw [he.lane_eq]
      exact List.suffix_cons _ _
    · exact he.lane_ne c hch ▸ List.suffix_refl _
  · intro k e hk
    rw [he.inFlight_eq, get?_settle] at hk
    split at hk
    · obtain ⟨e', he', rfl⟩ := Option.map_eq_some_iff.mp hk
      exact ht.entry_eq k e' he'
    · exact ht.entry_eq k e hk
  · rw [he.report_eq]
    exact ht.spillsIn_eq
  · rw [he.report_eq, hdel]
    exact ht.eventsOut_eq
  · rw [he.report_eq]
    exact ht.decodeErrors_eq

/-- A delivery without anything to deliver has no hits. -/
theorem output_eq_nil_of_isEmpty {origin : Spill} (h : (m.parcel origin).isEmpty = true) :
    m.output = [] := by
  have hp : (m.parcel origin).payload.isEmpty = true := by
    simp only [Spill.isEmpty, Bool.and_eq_true] at h
    exact h.1.1.1
  exact List.isEmpty_iff.mp hp

/-- A delivery hands one spill over, unless that has nothing in it. -/
theorem spills_deliver (m : Merger) (origin : Spill) :
    (m.deliver origin).sink.archive.spills =
      m.sink.archive.spills ++ [m.parcel origin].filter (!·.isEmpty) := by
  rw [deliver]
  dsimp only
  split
  · rename_i he
    simp [he]
  · rename_i he
    simp [he, Sink.add, Archive.add]

theorem report_deliver (m : Merger) (origin : Spill) :
    (m.deliver origin).report.spillsIn = m.report.spillsIn ∧
      (m.deliver origin).report.eventsOut = m.report.eventsOut + m.output.length ∧
      (m.deliver origin).report.decodeErrors = m.report.decodeErrors := by
  rw [deliver]
  dsimp only
  split
  · rename_i he
    rw [output_eq_nil_of_isEmpty he]
    exact ⟨rfl, rfl, rfl⟩
  · exact ⟨rfl, rfl, rfl⟩

theorem handedSince_deliver (h : m₀.sink.archive.spills <+: m.sink.archive.spills)
    (origin : Spill) :
    (m.deliver origin).handedSince m₀ =
      m.handedSince m₀ ++ [m.parcel origin].filter (!·.isEmpty) := by
  rw [handedSince, spills_deliver, List.drop_append_of_le_length h.length_le, handedSince]

theorem deliveredSince_deliver (h : m₀.sink.archive.spills <+: m.sink.archive.spills)
    (origin : Spill) : (m.deliver origin).deliveredSince m₀ = m.emittedSince m₀ := by
  rw [deliveredSince, handedSince_deliver h, List.flatMap_append, emittedSince, deliveredSince]
  congr 1
  cases he : (m.parcel origin).isEmpty with
  | true => simp [he, output_eq_nil_of_isEmpty he]
  | false =>
    rw [List.filter_cons_of_pos (by simp [he]), List.filter_nil, List.flatMap_singleton]
    rfl

theorem Tracks.deliver (ht : m₀.Tracks past m) (origin : Spill) :
    m₀.Tracks past (m.deliver origin) := by
  obtain ⟨hdec, hfl, hnext, hl, -, hout, -⟩ := deliver_fields m origin
  obtain ⟨hin, hev, herr⟩ := report_deliver m origin
  have hdel := deliveredSince_deliver ht.sink_initial origin
  have hlane : ∀ c, (m.deliver origin).lane c = m.lane c := fun c => by rw [lane, lane, hl]
  refine ⟨hdec.trans ht.decoders_eq, hnext.trans ht.nextSeq_eq, ?_, ?_, ?_, ?_, ?_, ?_, ?_⟩
  · rw [spills_deliver]
    exact ht.sink_initial.trans (List.prefix_append _ _)
  · intro c
    rw [emittedSince, hdel, hout, List.append_nil, hlane]
    exact ht.fifo c
  · intro c
    rw [hlane]
    exact ht.lane_suffix c
  · intro seq e he
    rw [hfl] at he
    exact ht.entry_eq seq e he
  · rw [hin]
    exact ht.spillsIn_eq
  · rw [hev, hdel, ht.eventsOut_eq, emittedSince, List.length_append]
  · rw [herr]
    exact ht.decodeErrors_eq

theorem Tracks.release (ht : m₀.Tracks past m) (x : Nat × InFlight) :
    m₀.Tracks past (m.release x) := by
  refine Tracks.deliver ?_ x.2.spill
  refine ⟨ht.decoders_eq, ht.nextSeq_eq, ht.sink_initial, ht.fifo, ht.lane_suffix, ?_,
    ht.spillsIn_eq, ht.eventsOut_eq, ht.decodeErrors_eq⟩
  intro seq e he
  rw [KeyMap.get?_erase] at he
  split at he
  · cases he
  · exact ht.entry_eq seq e he

theorem Tracks.close (ht : m₀.Tracks past m) : m₀.Tracks past m.close :=
  ⟨ht.decoders_eq, ht.nextSeq_eq, ht.sink_initial, ht.fifo, ht.lane_suffix, ht.entry_eq,
    ht.spillsIn_eq, ht.eventsOut_eq, ht.decodeErrors_eq⟩

theorem Tracks.merge (ht : m₀.Tracks past m) (hc : m.Coherent) : m₀.Tracks past m.merge :=
  (hc.merge_induct ht fun _ _ _ _ _ ht he => ht.emission he).1

theorem Tracks.drain (ht : m₀.Tracks past m) (hc : m.Coherent) : m₀.Tracks past m.drain :=
  (hc.drain_induct ht fun _ x _ ht _ _ => ht.release x).1

theorem Tracks.push (ht : m₀.Tracks past m) (hc : m.Coherent) (s : Spill) :
    m₀.Tracks (past ++ [s]) (m.push s) :=
  ((ht.receive s).merge (hc.receive s)).drain (hc.receive s).merge

end

theorem pushAll_append (m : Merger) (past : List Spill) (s : Spill) :
    m.pushAll (past ++ [s]) = (m.pushAll past).push s := by
  simp [pushAll]

theorem Fresh.tracks_pushAll {m : Merger} (h : m.Fresh) (spills : List Spill) :
    m.Tracks spills (m.pushAll spills) := by
  have key : ∀ (todo past : List Spill) (m' : Merger), m'.Coherent → m.Tracks past m' →
      m.Tracks (past ++ todo) (m'.pushAll todo) := by
    intro todo
    induction todo with
    | nil => intro past m' _ ht; simpa [pushAll] using ht
    | cons s rest ih =>
      intro past m' hc ht
      have := ih (past ++ [s]) (m'.push s) (hc.push s) (ht.push hc s)
      rwa [List.append_assoc] at this
  exact key spills [] m h.coherent h.tracks

/-! ## The end -/

/-- The merger that is about to be told whether something is left over: its input is closed, and it
has emitted and released everything. -/
def wound (m : Merger) : Merger := m.close.merge.drain

theorem exhaust_eq (m : Merger) :
    m.exhaust = if m.wound.output.isEmpty then m.wound else m.wound.deliver .blank := rfl

section

variable {m₀ m : Merger} {past : List Spill}

theorem closed_merge (hc : m.Coherent) : m.merge.closed = m.closed :=
  (hc.merge_induct (P := fun m' => m'.closed = m.closed) rfl
    fun _ _ _ _ _ h he => he.closed_eq.trans h).1

theorem lanes_drain (hc : m.Coherent) : m.drain.lanes = m.lanes :=
  (hc.drain_induct (P := fun m' => m'.lanes = m.lanes) rfl
    fun m x _ h _ _ => (release_fields m x).2.2.2.1.trans h).1

theorem closed_drain (hc : m.Coherent) : m.drain.closed = m.closed :=
  (hc.drain_induct (P := fun m' => m'.closed = m.closed) rfl
    fun m x _ h _ _ => (release_fields m x).2.2.2.2.2.2.trans h).1

/-- At the end nothing stays buffered. -/
theorem lane_close_merge (hc : m.Coherent) (c : Channel) : m.close.merge.lane c = [] := by
  rcases hc.close.lane_merge with h | h
  · have hcl : m.close.merge.closed = true := closed_merge hc.close
    simp [isHeldUp, hcl] at h
  · exact h c

theorem lane_wound (hc : m.Coherent) (c : Channel) : m.wound.lane c = [] := by
  rw [wound, lane, lanes_drain hc.close.merge]
  exact lane_close_merge hc c

theorem Tracks.wound (ht : m₀.Tracks past m) (hc : m.Coherent) : m₀.Tracks past m.wound :=
  (ht.close.merge hc.close).drain hc.close.merge

theorem Tracks.exhaust (ht : m₀.Tracks past m) (hc : m.Coherent) :
    m₀.Tracks past m.exhaust ∧ m.exhaust.output = [] ∧ ∀ c, m.exhaust.lane c = [] := by
  have hw := ht.wound hc
  rw [exhaust_eq]
  split
  · rename_i ho
    exact ⟨hw, List.isEmpty_iff.mp ho, lane_wound hc⟩
  · obtain ⟨-, -, -, hl, -, hout, -⟩ := deliver_fields m.wound .blank
    refine ⟨hw.deliver _, hout, fun c => ?_⟩
    rw [lane, hl]
    exact lane_wound hc c

/-- What is handed over in the end is all that arrived. -/
theorem Tracks.onChannel_finish (ht : m₀.Tracks past m) (hc : m.Coherent) (c : Channel) :
    Hit.onChannel c (m.finish.deliveredSince m₀) = Hit.onChannel c (m₀.arrivals past) := by
  obtain ⟨hx, hout, hl⟩ := ht.exhaust hc
  have hf := hx.fifo c
  rw [emittedSince, hout, hl c, List.map_nil, List.append_nil, List.append_nil] at hf
  exact hf

end

/-- No hit is lost, duplicated or reordered inside its channel, whatever is pushed. At any time the
hits of a channel that were handed to the sink, those that are emitted and wait for a delivery, and
those in the channel's lane are together the channel's hits in the order of their arrival, and in
the end all of them have been handed over. -/
theorem channels_conserved {m : Merger} (h : m.Fresh) (spills : List Spill) :
    (∀ c, Hit.onChannel c ((m.pushAll spills).deliveredSince m) ++
        Hit.onChannel c (m.pushAll spills).output ++ ((m.pushAll spills).lane c).map (·.1) =
      Hit.onChannel c (m.arrivals spills)) ∧
    (m.pushAll spills).buffered = ((m.pushAll spills).lanes.values.flatMap (·.hits)).length ∧
    ∀ c, Hit.onChannel c ((m.pushAll spills).finish.deliveredSince m) =
      Hit.onChannel c (m.arrivals spills) := by
  have ht := h.tracks_pushAll spills
  have hc := h.coherent.pushAll spills
  refine ⟨fun c => ?_, buffered_eq _, ht.onChannel_finish hc⟩
  rw [← ht.fifo c, emittedSince, Hit.onChannel_append]

/-- Hits out of order, on a channel nobody waits for, and a buffer that does not decode. -/
theorem channels_conserved_unordered :
    let a (t : UInt64) : Hit := ⟨0, t, 7, .empty⟩
    let b (t : UInt64) : Hit := ⟨1, t, 9, .pileup⟩
    let m := (new .empty).withChannels [0, 3]
    let spills : List Spill := [.events "left" [a 20, b 15, a 10], .raw "right" [1, 2]]
    m.Fresh ∧ Hit.onChannel 0 ((m.pushAll spills).finish.deliveredSince m) = [a 20, a 10] := by
  intro a b m spills
  have hm : m.Fresh := (fresh_new .empty).withChannels [0, 3]
  have harr : Hit.onChannel 0 (m.arrivals spills) = [a 20, a 10] := by decide
  obtain ⟨-, -, hend⟩ := channels_conserved hm spills
  exact ⟨hm, (hend 0).trans harr⟩

end ListMode.Merger
