import ListMode.Proofs.Merger.Canonical

/-!
# A merger at work

The work of a merger cut into its single steps: a spill is received, hits go out one by one, the
spills in flight are looked at one by one, and at the end the sink is flushed. Each step keeps the
merger coherent, so every state on the way is, and not only those between two pushes. The states
between two pushes are those that `push` and `finish` lead to (`Passes.push`, `Passes.finish`).
-/

namespace ListMode

namespace Merger

/-! ## Stages -/

/-- What a merger does next. -/
inductive Stage where
  /-- It waits for a spill. -/
  | resting
  /-- It emits hits. -/
  | merging
  /-- It looks at the spills of `left`, where `hold` is what older ones hold back. -/
  | draining (hold : Hold) (left : List (Nat × InFlight))
  /-- It is done. -/
  | finished

/-- The states through which a merger passes that delivers into `sink`. It is told of decoders and
channels while it waits. -/
inductive Passes (sink : Sink) : Stage → Merger → Prop
  | new : Passes sink .resting (.new sink)
  | withDecoder {m : Merger} (h : Passes sink .resting m) (source : String) (decoder : Decoder) :
      Passes sink .resting (m.withDecoder source decoder)
  | withChannels {m : Merger} (h : Passes sink .resting m) (channels : List Channel) :
      Passes sink .resting (m.withChannels channels)
  | receive {m : Merger} (h : Passes sink .resting m) (s : Spill) :
      Passes sink .merging (m.receive s)
  | close {m : Merger} (h : Passes sink .resting m) : Passes sink .merging m.close
  | emit {m m' : Merger} (h : Passes sink .merging m) (he : m.emit? = some m') :
      Passes sink .merging m'
  | merged {m : Merger} (h : Passes sink .merging m) (he : m.emit? = none) :
      Passes sink (.draining .none m.inFlight.entries) m
  | look {m : Merger} {hold : Hold} {x : Nat × InFlight} {left : List (Nat × InFlight)}
      (h : Passes sink (.draining hold (x :: left)) m) :
      Passes sink (.draining (drainOne (m, hold) x).2 left) (drainOne (m, hold) x).1
  | drained {m : Merger} {hold : Hold} (h : Passes sink (.draining hold []) m)
      (hopen : m.closed = false) : Passes sink .resting m
  | flush {m : Merger} {hold : Hold} (h : Passes sink (.draining hold []) m)
      (hclosed : m.closed = true) :
      Passes sink .finished
        (let m := if m.output.isEmpty then m else m.deliver .blank
         { m with sink := m.sink.flush })

/-! ## What a step keeps -/

/-- Other lanes with the same hits in them. -/
theorem Coherent.relaned {m : Merger} (h : m.Coherent) {lanes : KeyMap Channel Lane}
    (hhits : ∀ c, hitsAt lanes c = hitsAt m.lanes c) (hlaned : (laned lanes).Perm (laned m.lanes))
    (hfronts : (frontsOf lanes).Perm (frontsOf m.lanes)) :
    ({ m with lanes } : Merger).Coherent := by
  have htags : ((laned lanes).map Prod.snd).Perm m.tags := hlaned.map Prod.snd
  refine ⟨⟨fun c x hx => h.channel_eq c x ?_, h.fronts_perm.trans hfronts.symm, h.fronts_sorted⟩,
    fun seq e he => ?_, fun seq hseq => h.tag_mem seq (htags.mem_iff.mp hseq), h.seq_lt⟩
  · rwa [lane, hhits] at hx
  · exact (h.remaining_eq seq e he).trans (htags.count_eq seq).symm

theorem Coherent.withChannels {m : Merger} (h : m.Coherent) (channels : List Channel) :
    (m.withChannels channels).Coherent := by
  induction channels generalizing m with
  | nil => exact h
  | cons c rest ih =>
    refine ih (m := { m with lanes := m.lanes.insertIfNew c .new }) (h.relaned ?_ ?_ ?_)
    · intro c'
      refine (hitsAt_alter m.lanes c c' _).trans ?_
      split
      · rename_i hc
        rw [hits_getD, hc]
      · rfl
    · obtain ⟨others, hold, hnew⟩ := laned_alter m.lanes c fun old => old.getD .new
      rw [hits_getD] at hnew
      exact hnew.trans hold.symm
    · obtain ⟨others, hold, hnew⟩ := frontsOf_alter m.lanes c fun old => old.getD .new
      rw [hits_getD] at hnew
      exact hnew.trans hold.symm

theorem Coherent.deliver {m : Merger} (h : m.Coherent) (origin : Spill) :
    (m.deliver origin).Coherent := by
  obtain ⟨-, hi, hn, hl, hf, -, -⟩ := deliver_fields m origin
  exact h.of_eq hl hf hi hn

/-- What a stage knows of the merger: it waits only while its input is open, and the spills that it
has yet to look at are in flight. -/
def Stage.Fits : Stage → Merger → Prop
  | .resting, m => m.closed = false
  | .draining _ left, m =>
    (left.Pairwise fun x y => x.1 < y.1) ∧ ∀ x ∈ left, m.inFlight.get? x.1 = some x.2
  | _, _ => True

/-- Looking at a spill lets it leave or not, and touches no other. -/
theorem Coherent.look {m : Merger} (h : m.Coherent) {hold : Hold} {x : Nat × InFlight}
    {left : List (Nat × InFlight)} (hfits : (Stage.draining hold (x :: left)).Fits m) :
    (drainOne (m, hold) x).1.Coherent ∧
      (Stage.draining (drainOne (m, hold) x).2 left).Fits (drainOne (m, hold) x).1 := by
  obtain ⟨hsorted, hin⟩ := hfits
  obtain ⟨hlt, hsorted⟩ := List.pairwise_cons.mp hsorted
  obtain ⟨hx, hin⟩ := List.forall_mem_cons.mp hin
  unfold drainOne
  dsimp only
  split
  · rename_i hreleases
    have hremaining : x.2.remaining = 0 := by
      rw [Hold.releases, Bool.and_eq_true, beq_iff_eq] at hreleases
      exact hreleases.1
    refine ⟨h.release hx hremaining, hsorted, fun y hy => ?_⟩
    have hne : x.1 ≠ y.1 := Nat.ne_of_lt (hlt y hy)
    refine (congrArg (·.get? y.1) (release_fields m x).2.1).trans ?_
    rw [KeyMap.get?_erase, if_neg hne]
    exact hin y hy
  · exact ⟨h, hsorted, hin⟩

theorem Passes.coherent {sink : Sink} {stage : Stage} {m : Merger} (h : Passes sink stage m) :
    m.Coherent ∧ stage.Fits m := by
  induction h with
  | new => exact ⟨(fresh_new sink).coherent, rfl⟩
  | withDecoder _ source decoder ih => exact ⟨ih.1.of_eq rfl rfl rfl rfl, ih.2⟩
  | withChannels _ channels ih => exact ⟨ih.1.withChannels channels, ih.2⟩
  | receive _ s ih => exact ⟨ih.1.receive s, trivial⟩
  | close _ ih => exact ⟨ih.1.close, trivial⟩
  | emit _ he ih =>
    obtain ⟨hit, seq, hemission, hfronted⟩ := ih.1.toFronted.emission he
    exact ⟨ih.1.emission hemission hfronted, trivial⟩
  | @merged m _ _ ih =>
    refine ⟨ih.1, m.inFlight.sorted.imp Nat.compare_eq_lt.mp, fun x hx => ?_⟩
    exact (KeyMap.get?_eq_some_iff m.inFlight).mpr hx
  | look _ ih => exact ih.1.look ih.2
  | drained _ hopen ih => exact ⟨ih.1, hopen⟩
  | @flush m hold _ _ ih =>
    refine ⟨?_, trivial⟩
    refine Coherent.of_eq (m := if m.output.isEmpty then m else m.deliver .blank) ?_ rfl rfl rfl rfl
    split
    · exact ih.1
    · exact ih.1.deliver .blank

/-! ## From push to push -/

section

variable {sink : Sink} {m : Merger}

theorem Passes.emitUpTo (h : Passes sink .merging m) (n : Nat) :
    Passes sink .merging (emitUpTo n m) := by
  induction n generalizing m with
  | zero => exact h
  | succ n ih =>
    rw [Merger.emitUpTo]
    cases he : m.emit? with
    | none => exact h
    | some m' => exact ih (h.emit he)

theorem Passes.foldl_drainOne {hold : Hold} {left : List (Nat × InFlight)}
    (h : Passes sink (.draining hold left) m) :
    ∃ hold', Passes sink (.draining hold' []) (left.foldl drainOne (m, hold)).1 := by
  induction left generalizing m hold with
  | nil => exact ⟨hold, h⟩
  | cons x left ih => exact ih h.look

/-- Merging ends where nothing more can be emitted, draining where nothing is left to look at. -/
theorem Passes.drain (h : Passes sink .merging m) :
    ∃ hold, Passes sink (.draining hold []) m.merge.drain := by
  obtain ⟨-, -, he⟩ :=
    h.coherent.1.merge_induct (P := fun _ => True) trivial fun _ _ _ _ _ _ _ => trivial
  exact ((h.emitUpTo _).merged he).foldl_drainOne

theorem Passes.push (h : Passes sink .resting m) (s : Spill) : Passes sink .resting (m.push s) := by
  obtain ⟨hc, hopen⟩ := h.coherent
  obtain ⟨hold, hdrain⟩ := (h.receive s).drain
  exact hdrain.drained ((closed_push hc s).trans hopen)

theorem Passes.pushAll (h : Passes sink .resting m) (spills : List Spill) :
    Passes sink .resting (m.pushAll spills) := by
  induction spills generalizing m with
  | nil => exact h
  | cons s rest ih => exact ih (h.push s)

theorem Passes.finish (h : Passes sink .resting m) : Passes sink .finished m.finish := by
  obtain ⟨hc, -⟩ := h.coherent
  obtain ⟨hold, hdrain⟩ := h.close.drain
  exact hdrain.flush ((closed_drain hc.close.merge).trans (closed_merge hc.close))

end

/-! ## What the structures say about each other -/

/-- The front of one channel is that of its lane. -/
theorem filter_frontsOf (lanes : KeyMap Channel Lane) (c : Channel) :
    (frontsOf lanes).filter (·.channel = c) = (frontKey? c (hitsAt lanes c)).toList := by
  have hfront : ∀ e : Channel × Lane, (frontKey? e.1 e.2.hits).filter (·.channel = c) =
      if decide (e.1 = c) then frontKey? e.1 e.2.hits else none := by
    intro e
    unfold frontKey?
    cases e.2.hits.head? with
    | none => simp
    | some x => by_cases hc : e.1 = c <;> simp [hc]
  have hentry : lanes.entries.filter (·.1 = c) = ((lanes.get? c).map (c, ·)).toList :=
    KeyMap.filter_entries lanes.nodup_keys
  rw [frontsOf, List.filter_filterMap, funext hfront, ← List.filterMap_filter, hentry]
  cases hc : lanes.get? c with
  | none => simp [hitsAt, hc, frontKey?]
  | some l =>
    rw [hitsAt_eq hc]
    cases hk : frontKey? c l.hits <;> simp [hk]

/-- Fronts, lanes and spills in flight describe the same hits. -/
structure Consistent (m : Merger) : Prop where
  /-- A lane that is not empty has one front, made of its channel and the time stamp of its first
  hit, and other channels have none. -/
  fronts_eq : ∀ c, m.fronts.filter (·.channel = c) = (frontKey? c (m.lane c)).toList
  channel_eq : ∀ c l, m.lanes.get? c = some l → ∀ x ∈ l.hits, x.1.channel = c
  tag_mem : ∀ c l, m.lanes.get? c = some l → ∀ x ∈ l.hits,
    (∃ e, m.inFlight.get? x.2 = some e) ∧ x.2 < m.nextSeq
  remaining_eq : ∀ seq e, m.inFlight.get? seq = some e →
    e.remaining = (m.lanes.values.flatMap (·.hits)).countP (·.2 = seq)

theorem Coherent.consistent {m : Merger} (h : m.Coherent) : m.Consistent where
  fronts_eq c := by
    have hperm := h.fronts_perm.filter (·.channel = c)
    rw [filter_frontsOf, ← lane] at hperm
    cases hk : frontKey? c (m.lane c) with
    | none =>
      rw [hk] at hperm
      exact hperm.eq_nil
    | some k =>
      rw [hk] at hperm
      exact List.perm_singleton.mp hperm
  channel_eq c l hl x hx := h.channel_eq c x (by rwa [lane, hitsAt_eq hl])
  tag_mem c l hl x hx := by
    have hlaned : x ∈ laned m.lanes := mem_laned.mpr ⟨c, by rwa [hitsAt_eq hl]⟩
    have hkey : x.2 ∈ m.inFlight.keys := h.tag_mem x.2 (List.mem_map_of_mem hlaned)
    exact ⟨KeyMap.mem_keys_iff.mp hkey, h.seq_lt x.2 hkey⟩
  remaining_eq seq e he := by
    rw [h.remaining_eq seq e he, tags, List.count_eq_countP, List.countP_map]
    exact List.countP_congr fun x _ => by simp

/-- In every state that a merger passes through, also while it merges, drains and finishes: the
fronts are exactly those of the lanes that are not empty, every buffered hit is in the lane of its
channel and carries the number of a spill in flight, and every spill in flight counts its buffered
hits. So the front that is taken off always names a lane with a hit of that key, whose spill is in
flight and has hits to go, and no lane has a smaller front. From each state between two pushes, a
push leads to another one and the end of the input to the last one. -/
theorem consistent_throughout {sink : Sink} {stage : Stage} {m : Merger}
    (h : Passes sink stage m) :
    m.Consistent ∧
    (∀ k fronts, m.fronts = k :: fronts → ∃ l hit seq rest e,
      m.lanes.get? k.channel = some l ∧ l.hits = (hit, seq) :: rest ∧ hit.key = k ∧
      m.inFlight.get? seq = some e ∧ 0 < e.remaining ∧
      ∀ c k', frontKey? c (m.lane c) = some k' → k ≤ k') ∧
    (stage = .resting →
      (∀ s, Passes sink .resting (m.push s)) ∧ Passes sink .finished m.finish) := by
  obtain ⟨hc, -⟩ := h.coherent
  have hcons : m.Consistent := hc.consistent
  refine ⟨hcons, fun k fronts hk => ?_, ?_⟩
  · obtain ⟨l, hit, seq, rest, rfl, hl, hhits⟩ := hc.toFronted.of_mem_fronts (k := k) (by simp [hk])
    have hx : (hit, seq) ∈ l.hits := by simp [hhits]
    obtain ⟨⟨e, he⟩, -⟩ := hcons.tag_mem hit.channel l hl (hit, seq) hx
    have hremaining : 0 < e.remaining := by
      rw [hcons.remaining_eq seq e he, List.countP_pos_iff]
      exact ⟨(hit, seq), mem_laned.mpr ⟨hit.channel, by rwa [hitsAt_eq hl]⟩, by simp⟩
    refine ⟨l, hit, seq, rest, e, hl, hhits, rfl, he, hremaining, fun c k' hk' => ?_⟩
    have hmem : k' ∈ m.fronts := hc.fronts_perm.mem_iff.mpr (mem_frontsOf.mpr ⟨c, hk'⟩)
    exact hc.toFronted.head_le hk hmem
  · rintro rfl
    exact ⟨h.push, h.finish⟩

/-- In the middle of a merge one hit of a spill has gone out. The two others are still to go, the
later one first, and the front that would be taken off is that of the later one. -/
theorem consistent_throughout_midway :
    let s : Spill := .events "left"
      [⟨0, 20, 7, .empty⟩, ⟨1, 10, 9, .pileup⟩, ⟨0, 5, 7, .empty⟩]
    let m := emitUpTo 1 (((new .empty).withChannels [0]).receive s)
    Passes .empty .merging m ∧ m.output.length = 1 ∧ m.fronts = [⟨20, 0⟩] ∧ m.Consistent ∧
      ∃ l hit seq rest e, m.lanes.get? 0 = some l ∧ l.hits = (hit, seq) :: rest ∧
        hit.key = ⟨20, 0⟩ ∧ m.inFlight.get? seq = some e ∧ 0 < e.remaining := by
  intro s m
  have hpasses : Passes .empty .merging m := ((Passes.new.withChannels [0]).receive s).emitUpTo 1
  have hfronts : m.fronts = [⟨20, 0⟩] := by decide
  obtain ⟨hcons, hpop, -⟩ := consistent_throughout hpasses
  obtain ⟨l, hit, seq, rest, e, hl, hhits, hkey, he, hremaining, -⟩ := hpop ⟨20, 0⟩ [] hfronts
  exact ⟨hpasses, by decide, hfronts, hcons, l, hit, seq, rest, e, hl, hhits, hkey, he, hremaining⟩

end Merger

end ListMode
