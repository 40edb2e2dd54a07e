import Mathlib.Data.List.Induction
import ListMode.Proofs.Merger.Conservation

/-!
# The merged stream is the stable sort

As long as the channels keep their order, are awaited, and end with their stop, nothing that is
emitted can be preceded by anything that is buffered or still to come. Hence what the sink has
received is at any time a beginning of the stable sort of all hits by time stamp and channel, and
all of it in the end, however the hits were cut into spills and however these were interleaved.
-/

namespace ListMode.Merger

/-- Whether the statistics of `s` say that channel `c` has stopped. -/
def stops (s : Spill) (c : Channel) : Bool := (s.stats.get? c).any (·.isStop)

/-- What the merger is promised about `spills` when it waits for `channels`: every channel with a
hit is awaited, its hits come in time order, and none comes in a spill after the channel's stop. -/
structure Promised (m : Merger) (channels : List Channel) (spills : List Spill) : Prop where
  awaited : ∀ h ∈ m.arrivals spills, h.channel ∈ channels
  ordered : ∀ c, (Hit.onChannel c (m.arrivals spills)).Pairwise (·.timestamp ≤ ·.timestamp)
  final : spills.Pairwise fun s later => ∀ h ∈ m.decoded later, stops s h.channel = false

/-- Nothing emitted is preceded by a buffered hit or by one that is still to come, and a channel
with hits still to come has an open lane. -/
structure Sorts (m₀ : Merger) (future : List Spill) (m : Merger) : Prop where
  emitted_sorted : (m.emittedSince m₀).Pairwise (·.key ≤ ·.key)
  le_laned : ∀ x ∈ m.emittedSince m₀, ∀ y ∈ laned m.lanes, x.key ≤ y.1.key
  le_future : ∀ x ∈ m.emittedSince m₀, ∀ y ∈ m₀.arrivals future, x.key ≤ y.key
  isOpen_eq : ∀ y ∈ m₀.arrivals future, (m.lanes.get? y.channel).map (·.isOpen) = some true

section

variable {m₀ m m' : Merger} {past future : List Spill}

/-- The first hit of a lane precedes the other hits of its channel, buffered or still to come. -/
theorem Tracks.front_le (ht : m₀.Tracks past m) (hc : m.Coherent)
    (ho : ∀ c, (Hit.onChannel c (m₀.arrivals (past ++ future))).Pairwise
      (·.timestamp ≤ ·.timestamp))
    {c : Channel} {f : Hit × Nat} {rest : List (Hit × Nat)} (hl : m.lane c = f :: rest) :
    f.1.channel = c ∧ (∀ y ∈ m.lane c, f.1.key ≤ y.1.key) ∧
      ∀ y ∈ m₀.arrivals future, y.channel = c → f.1.key ≤ y.key := by
  have hf : f.1.channel = c := hc.channel_eq c f (by rw [hl]; simp)
  have hp := ho c
  rw [arrivals_append, Hit.onChannel_append, ← ht.fifo c, hl, List.append_assoc] at hp
  obtain ⟨-, hp, -⟩ := List.pairwise_append.mp hp
  obtain ⟨hp, -⟩ := List.pairwise_cons.mp hp
  refine ⟨hf, ?_, ?_⟩
  · intro y hy
    have hyc := hc.channel_eq c y hy
    rw [hl] at hy
    rcases List.mem_cons.mp hy with rfl | hy
    · exact Hit.Key.le_refl _
    · have hmem : y.1 ∈ rest.map (·.1) := List.mem_map.mpr ⟨y, hy, rfl⟩
      exact Hit.key_le_of_timestamp_le (hf.trans hyc.symm) (hp y.1 (List.mem_append_left _ hmem))
  · intro y hy hyc
    have hmem : y ∈ Hit.onChannel c (m₀.arrivals future) := Hit.mem_onChannel.mpr ⟨hy, hyc⟩
    exact Hit.key_le_of_timestamp_le (hf.trans hyc.symm) (hp y (List.mem_append_right _ hmem))

/-- The key of a lane's first hit is among the fronts. -/
theorem Coherent.key_mem_fronts (hc : m.Coherent) {c : Channel} {f : Hit × Nat}
    {rest : List (Hit × Nat)} (hl : m.lane c = f :: rest) : f.1.key ∈ m.fronts := by
  have hf : f.1.channel = c := hc.channel_eq c f (by rw [hl]; simp)
  refine hc.fronts_perm.mem_iff.mpr (mem_frontsOf.mpr ⟨c, ?_⟩)
  rw [← lane, hl, frontKey?, Hit.key, hf]
  rfl

/-- A merge that is not held up has a hit in every open lane. -/
theorem lane_ne_nil (hfree : m.isHeldUp = false) (hcl : m.closed = false) {c : Channel}
    (ho : (m.lanes.get? c).map (·.isOpen) = some true) : m.lane c ≠ [] := by
  obtain ⟨l, hl, hopen⟩ := Option.map_eq_some_iff.mp ho
  intro hnil
  rw [lane, hitsAt_eq hl] at hnil
  have hst : m.lanes.values.any Lane.isStarved = true := by
    refine List.any_eq_true.mpr ⟨l, KeyMap.mem_values_iff.mpr ⟨c, hl⟩, ?_⟩
    simp [Lane.isStarved, hopen, hnil]
  simp [isHeldUp, hcl, hst] at hfree

theorem Sorts.emission {hit : Hit} {seq : Nat} (h : m₀.Sorts future m) (ht : m₀.Tracks past m)
    (hc : m.Coherent) (he : Emission m hit seq m') (hcl : m.closed = false ∨ future = [])
    (ho : ∀ c, (Hit.onChannel c (m₀.arrivals (past ++ future))).Pairwise
      (·.timestamp ≤ ·.timestamp)) : m₀.Sorts future m' := by
  have hem : m'.emittedSince m₀ = m.emittedSince m₀ ++ [hit] := he.emittedSince_eq
  have hlaned : (hit, seq) ∈ laned m.lanes := he.laned_perm.mem_iff.mpr (by simp)
  have hsub : ∀ y ∈ laned m'.lanes, y ∈ laned m.lanes := fun y hy =>
    he.laned_perm.mem_iff.mpr (List.mem_cons_of_mem _ hy)
  -- The emitted hit is the least front, and each front is the least of its lane.
  have hleast : ∀ y ∈ laned m.lanes, hit.key ≤ y.1.key := by
    intro y hy
    obtain ⟨c, hy⟩ := mem_laned.mp hy
    rw [← lane] at hy
    cases hl : m.lane c with
    | nil => rw [hl] at hy; cases hy
    | cons f rest =>
      exact Hit.Key.le_trans (he.least _ (hc.key_mem_fronts hl)) ((ht.front_le hc ho hl).2.1 y hy)
  -- A channel with hits to come is represented among the fronts.
  have hfuture : ∀ y ∈ m₀.arrivals future, hit.key ≤ y.key := by
    intro y hy
    have hcl : m.closed = false := by
      rcases hcl with hcl | hnil
      · exact hcl
      · rw [hnil] at hy
        cases hy
    cases hl : m.lane y.channel with
    | nil => exact absurd hl (lane_ne_nil he.free hcl (h.isOpen_eq y hy))
    | cons f rest =>
      exact Hit.Key.le_trans (he.least _ (hc.key_mem_fronts hl))
        ((ht.front_le hc ho hl).2.2 y hy rfl)
  refine ⟨?_, ?_, ?_, ?_⟩
  · rw [hem]
    refine List.pairwise_append.mpr ⟨h.emitted_sorted, by simp, fun x hx y hy => ?_⟩
    rw [List.mem_singleton.mp hy]
    exact h.le_laned x hx (hit, seq) hlaned
  · intro x hx y hy
    rw [hem] at hx
    rcases List.mem_append.mp hx with hx | hx
    · exact h.le_laned x hx y (hsub y hy)
    · rw [List.mem_singleton.mp hx]
      exact hleast y (hsub y hy)
  · intro x hx y hy
    rw [hem] at hx
    rcases List.mem_append.mp hx with hx | hx
    · exact h.le_future x hx y hy
    · rw [List.mem_singleton.mp hx]
      exact hfuture y hy
  · intro y hy
    rw [he.isOpen_eq]
    exact h.isOpen_eq y hy

theorem Sorts.receive {s : Spill} (h : m₀.Sorts (s :: future) m) (hdec : m.decoders = m₀.decoders)
    (hs : ∀ y ∈ m₀.arrivals future, stops s y.channel = false) :
    m₀.Sorts future (m.receive s) := by
  obtain ⟨hsink, -, -, hout, -⟩ := receive_fields m s
  have hem : (m.receive s).emittedSince m₀ = m.emittedSince m₀ := by
    rw [emittedSince, deliveredSince_congr hsink, hout]
    rfl
  have harr : m₀.arrivals (s :: future) = m.decoded s ++ m₀.arrivals future := by
    rw [decoded_congr hdec]
    rfl
  refine ⟨?_, ?_, ?_, ?_⟩
  · rw [hem]
    exact h.emitted_sorted
  · intro x hx y hy
    rw [hem] at hx
    rcases List.mem_append.mp ((laned_receive m s).mem_iff.mp hy) with hy | hy
    · exact h.le_laned x hx y hy
    · obtain ⟨z, hz, rfl⟩ := List.mem_map.mp hy
      exact h.le_future x hx z (by rw [harr]; exact List.mem_append_left _ hz)
  · intro x hx y hy
    rw [hem] at hx
    exact h.le_future x hx y (by rw [harr]; exact List.mem_append_right _ hy)
  · intro y hy
    have hold := h.isOpen_eq y (by rw [harr]; exact List.mem_append_right _ hy)
    have hgo := hs y hy
    rw [isOpen_receive, hold]
    cases hu : s.stats.get? y.channel with
    | none => simp
    | some u =>
      rw [stops, hu, Option.any_some] at hgo
      simp [hgo]

theorem emittedSince_release (h : m₀.sink.archive.spills <+: m.sink.archive.spills)
    (x : Nat × InFlight) : (m.release x).emittedSince m₀ = m.emittedSince m₀ := by
  have hd : (m.release x).deliveredSince m₀ = m.emittedSince m₀ :=
    deliveredSince_deliver (m := { m with inFlight := m.inFlight.erase x.1 }) h x.2.spill
  rw [emittedSince, hd, (release_fields m x).2.2.2.2.2.1, List.append_nil]

theorem emittedSince_drain (ht : m₀.Tracks past m) (hc : m.Coherent) :
    m.drain.emittedSince m₀ = m.emittedSince m₀ := by
  have h := hc.drain_induct
    (P := fun m' => m₀.Tracks past m' ∧ m'.emittedSince m₀ = m.emittedSince m₀) ⟨ht, rfl⟩
    fun m x _ h _ _ => ⟨h.1.release x, (emittedSince_release h.1.sink_initial x).trans h.2⟩
  exact h.1.2

/-- Emitting only appends to what has been emitted. -/
theorem emittedSince_emitUpTo (hc : m.Coherent) (n : Nat) :
    m.emittedSince m₀ <+: (emitUpTo n m).emittedSince m₀ := by
  refine (hc.emitUpTo_induct (P := fun m' => m.emittedSince m₀ <+: m'.emittedSince m₀)
    (List.prefix_refl _) (fun m₁ hit seq m₂ _ h he => h.trans ?_) n).1
  rw [he.emittedSince_eq]
  exact List.prefix_append _ _

theorem emittedSince_merge (hc : m.Coherent) : m.emittedSince m₀ <+: m.merge.emittedSince m₀ :=
  emittedSince_emitUpTo hc _

theorem emittedSince_push (ht : m₀.Tracks past m) (hc : m.Coherent) (s : Spill) :
    m.emittedSince m₀ <+: (m.push s).emittedSince m₀ := by
  rw [push, emittedSince_drain ((ht.receive s).merge (hc.receive s)) (hc.receive s).merge,
    ← emittedSince_receive s]
  exact emittedSince_merge (hc.receive s)

theorem emittedSince_pushAll (ht : m₀.Tracks past m) (hc : m.Coherent) (todo : List Spill) :
    m.emittedSince m₀ <+: (m.pushAll todo).emittedSince m₀ := by
  induction todo generalizing m past with
  | nil => exact List.prefix_refl _
  | cons s rest ih => exact (emittedSince_push ht hc s).trans (ih (ht.push hc s) (hc.push s))

theorem closed_push (hc : m.Coherent) (s : Spill) : (m.push s).closed = m.closed := by
  obtain ⟨-, -, -, -, hcl, -⟩ := receive_fields m s
  rw [push, closed_drain (hc.receive s).merge, closed_merge (hc.receive s), hcl]

/-- The input stays open while spills are pushed. -/
theorem Fresh.closed_pushAll (h : m.Fresh) (spills : List Spill) :
    (m.pushAll spills).closed = false := by
  induction spills using List.reverseRecOn with
  | nil => exact h.closed_eq
  | append_singleton past s ih =>
    rw [pushAll_append, closed_push (h.coherent.pushAll past), ih]

theorem Sorts.merge (h : m₀.Sorts future m) (ht : m₀.Tracks past m) (hc : m.Coherent)
    (hcl : m.closed = false ∨ future = [])
    (ho : ∀ c, (Hit.onChannel c (m₀.arrivals (past ++ future))).Pairwise
      (·.timestamp ≤ ·.timestamp)) : m₀.Sorts future m.merge := by
  have key := hc.merge_induct
    (P := fun m' => m₀.Sorts future m' ∧ m₀.Tracks past m' ∧ (m'.closed = false ∨ future = []))
    ⟨h, ht, hcl⟩ fun m hit seq m' hc h he =>
      ⟨h.1.emission h.2.1 hc he h.2.2 ho, h.2.1.emission he, by rw [he.closed_eq]; exact h.2.2⟩
  exact key.1.1

theorem Sorts.drain (h : m₀.Sorts future m) (ht : m₀.Tracks past m) (hc : m.Coherent) :
    m₀.Sorts future m.drain := by
  have hem := emittedSince_drain ht hc
  have hl := lanes_drain hc
  refine ⟨?_, ?_, ?_, ?_⟩
  · rw [hem]
    exact h.emitted_sorted
  · rw [hem, hl]
    exact h.le_laned
  · rw [hem]
    exact h.le_future
  · rw [hl]
    exact h.isOpen_eq

end

/-! ## Whole runs -/

section

variable {m : Merger} {channels : List Channel} {spills : List Spill}

theorem isOpen_withChannels (h : m.Fresh) (channels : List Channel) {c : Channel}
    (hc : c ∈ channels) :
    ((m.withChannels channels).lanes.get? c).map (·.isOpen) = some true := by
  have key : ∀ (channels : List Channel) (lanes : KeyMap Channel Lane),
      c ∈ channels ∨ (∃ l, lanes.get? c = some l) →
      ∃ l, (channels.foldl (fun lanes c => lanes.insertIfNew c Lane.new) lanes).get? c =
        some l := by
    intro channels
    induction channels with
    | nil =>
      rintro lanes (hc | hc)
      · cases hc
      · exact hc
    | cons c' rest ih =>
      intro lanes hc
      refine ih _ ?_
      rw [KeyMap.get?_insertIfNew]
      by_cases he : c' = c
      · exact .inr ⟨_, if_pos he⟩
      · rw [if_neg he]
        refine hc.imp_left fun hc => ?_
        exact (List.mem_cons.mp hc).resolve_left (Ne.symm he)
  obtain ⟨l, hl⟩ := key channels m.lanes (.inl hc)
  have hnew : l = .new := (h.withChannels channels).lanes_eq c l hl
  change ((channels.foldl (fun lanes c => lanes.insertIfNew c Lane.new) m.lanes).get? c).map _ = _
  rw [hl, hnew]
  rfl

theorem Fresh.sorts (h : m.Fresh)
    (ho : ∀ y ∈ m.arrivals spills, (m.lanes.get? y.channel).map (·.isOpen) = some true) :
    m.Sorts spills m := by
  have hem : m.emittedSince m = [] := by
    simp [emittedSince, deliveredSince, handedSince, h.output_eq]
  refine ⟨?_, ?_, ?_, ho⟩
  · rw [hem]
    exact .nil
  · rw [hem]
    exact fun _ hx => absurd hx List.not_mem_nil
  · rw [hem]
    exact fun _ hx => absurd hx List.not_mem_nil

/-- The order of what is emitted, kept through a run. -/
theorem Promised.sorts (hp : m.Promised channels spills) (h : m.Fresh)
    (ho : ∀ c ∈ channels, (m.lanes.get? c).map (·.isOpen) = some true) (past future : List Spill)
    (hs : spills = past ++ future) : m.Sorts future (m.pushAll past) := by
  induction past using List.reverseRecOn generalizing future with
  | nil =>
    obtain rfl : spills = future := hs
    exact h.sorts fun y hy => ho _ (hp.awaited y hy)
  | append_singleton past s ih =>
    rw [List.append_assoc] at hs
    have ht := h.tracks_pushAll past
    have hc := h.coherent.pushAll past
    have hopen : ((m.pushAll past).receive s).closed = false :=
      (receive_fields (m.pushAll past) s).2.2.2.2.1.trans (h.closed_pushAll past)
    have hfinal := hp.final
    rw [hs] at hfinal
    have hgo : ∀ y ∈ m.arrivals future, stops s y.channel = false := by
      intro y hy
      obtain ⟨later, hl, hy⟩ := List.mem_flatMap.mp hy
      exact (List.pairwise_cons.mp (List.pairwise_append.mp hfinal).2.1).1 later hl y hy
    have hr : m.Sorts future ((m.pushAll past).receive s) :=
      (ih (s :: future) hs).receive ht.decoders_eq hgo
    have hord := hp.ordered
    rw [hs, ← List.append_assoc] at hord
    have hm := hr.merge (ht.receive s) (hc.receive s) (.inl hopen) hord
    rw [pushAll_append]
    exact hm.drain ((ht.receive s).merge (hc.receive s)) (hc.receive s).merge

/-- The end hands over what it emits and what was left, in one order. -/
theorem deliveredSince_finish {m₀ : Merger} {past : List Spill} (ht : m₀.Tracks past m)
    (hc : m.Coherent) : m.finish.deliveredSince m₀ = m.close.merge.emittedSince m₀ := by
  have hw : m.wound.emittedSince m₀ = m.close.merge.emittedSince m₀ :=
    emittedSince_drain (ht.close.merge hc.close) hc.close.merge
  have hfin : m.finish.deliveredSince m₀ = m.exhaust.deliveredSince m₀ := rfl
  rw [hfin, exhaust_eq, ← hw]
  split
  · rename_i ho
    rw [emittedSince, List.isEmpty_iff.mp ho, List.append_nil]
  · exact deliveredSince_deliver (ht.wound hc).sink_initial .blank

/-- A run that keeps its promise is merged into the stable sort. -/
theorem Promised.deliveredSince_finish (hp : m.Promised channels spills) (h : m.Fresh)
    (ho : ∀ c ∈ channels, (m.lanes.get? c).map (·.isOpen) = some true) :
    (m.pushAll spills).finish.deliveredSince m = Hit.sortByKey (m.arrivals spills) := by
  have ht := h.tracks_pushAll spills
  have hc := h.coherent.pushAll spills
  have hsort := hp.sorts h ho spills [] (List.append_nil _).symm
  have hclose : m.Sorts [] (m.pushAll spills).close :=
    ⟨hsort.emitted_sorted, hsort.le_laned, hsort.le_future, hsort.isOpen_eq⟩
  have hord := hp.ordered
  rw [← List.append_nil spills] at hord
  have hm := hclose.merge ht.close hc.close (.inr rfl) hord
  refine Hit.eq_sortByKey ?_ fun c => ht.onChannel_finish hc c
  rw [Merger.deliveredSince_finish ht hc]
  exact hm.emitted_sorted

/-- What has been handed over is a beginning of what will have been in the end. -/
theorem Fresh.deliveredSince_initial (h : m.Fresh) (past future : List Spill) :
    (m.pushAll past).deliveredSince m <+: (m.pushAll (past ++ future)).finish.deliveredSince m := by
  have ht := h.tracks_pushAll past
  have hc := h.coherent.pushAll past
  have hmore := emittedSince_pushAll ht hc future
  have hend : ((m.pushAll past).pushAll future).emittedSince m <+:
      ((m.pushAll past).pushAll future).close.merge.emittedSince m :=
    emittedSince_merge (hc.pushAll future).close
  have hall : (m.pushAll past).pushAll future = m.pushAll (past ++ future) :=
    List.foldl_append.symm
  rw [hall] at hmore hend
  rw [Merger.deliveredSince_finish (h.tracks_pushAll _) (h.coherent.pushAll _)]
  exact (List.prefix_append _ _).trans (hmore.trans hend)

/-- The awaited channels change neither what arrives nor what is promised. -/
theorem Promised.withChannels (hp : m.Promised channels spills) :
    (m.withChannels channels).Promised channels spills :=
  ⟨hp.awaited, hp.ordered, hp.final⟩

end

/-- The merged stream is canonical. After each push the hits handed to the sink are a beginning of
the stable sort by time stamp and channel of all hits of the run, at the end they are all of it, and
a run with the same hits on every channel hands over the same. -/
theorem merged_canonically {m : Merger} {channels : List Channel} {spills : List Spill}
    (hm : m.Fresh) (hp : m.Promised channels spills) :
    (∀ past future, spills = past ++ future →
      ((m.withChannels channels).pushAll past).deliveredSince m <+:
        Hit.sortByKey (m.arrivals spills)) ∧
    ((m.withChannels channels).pushAll spills).finish.deliveredSince m =
      Hit.sortByKey (m.arrivals spills) ∧
    ∀ (m' : Merger) (channels' : List Channel) (spills' : List Spill), m'.Fresh →
      m'.Promised channels' spills' →
      (∀ c, Hit.onChannel c (m'.arrivals spills') = Hit.onChannel c (m.arrivals spills)) →
      ((m'.withChannels channels').pushAll spills').finish.deliveredSince m' =
        ((m.withChannels channels).pushAll spills).finish.deliveredSince m := by
  have hend : ∀ {m : Merger} {channels : List Channel} {spills : List Spill}, m.Fresh →
      m.Promised channels spills →
      ((m.withChannels channels).pushAll spills).finish.deliveredSince m =
        Hit.sortByKey (m.arrivals spills) := fun hm hp =>
    hp.withChannels.deliveredSince_finish (hm.withChannels _) fun _ => isOpen_withChannels hm _
  refine ⟨?_, hend hm hp, ?_⟩
  · rintro past future rfl
    rw [← hend hm hp]
    exact (hm.withChannels channels).deliveredSince_initial past future
  · intro m' channels' spills' hm' hp' hsame
    rw [hend hm hp]
    have hsorted : ((m'.withChannels channels').pushAll spills').finish.deliveredSince m' =
        Hit.sortByKey (m'.arrivals spills') := hend hm' hp'
    rw [hsorted]
    refine Hit.eq_sortByKey (Hit.pairwise_sortByKey _) fun c => ?_
    rw [← hsame c]
    refine Hit.onChannel_sortByKey ((hp'.ordered c).imp_of_mem fun ha hb hab => ?_)
    have hac := (Hit.mem_onChannel.mp ha).2
    have hbc := (Hit.mem_onChannel.mp hb).2
    exact Hit.key_le_of_timestamp_le (hac.trans hbc.symm) hab

/-- Two channels, one of them in raw buffers, with two hits of one time stamp, cut in two ways. -/
theorem merged_canonically_two_channels :
    let a (t : UInt64) : Hit := ⟨0, t, 7, .empty⟩
    let b (t : UInt64) : Hit := ⟨1, t, 9, .pileup⟩
    let stop (c : Channel) : Snapshot Float := .new 0.0 c .stop ⟨0, 0⟩
    let m := (new .empty).withDecoder "right" Record.decoder
    let spills : List Spill := [
      .events "left" [a 10, a 20], .raw "right" (Record.encode [b 5, b 10]),
      (Spill.events "left" [a 30]).withStats (stop 0), Spill.blank.withStats (stop 1)]
    let spills' : List Spill := [
      .raw "right" (Record.encode [b 5]), .events "left" [a 10, a 20, a 30],
      .raw "right" (Record.encode [b 10])]
    m.Fresh ∧ m.Promised [0, 1] spills ∧ m.Promised [1, 0, 2] spills' ∧
      (((m.withChannels [0, 1]).pushAll (spills.take 2)).deliveredSince m <+:
        Hit.sortByKey [a 10, a 20, b 5, b 10, a 30]) ∧
      ((m.withChannels [1, 0, 2]).pushAll spills').finish.deliveredSince m =
        Hit.sortByKey [a 10, a 20, b 5, b 10, a 30] := by
  intro a b stop m spills spills'
  have hm : m.Fresh := (fresh_new .empty).withDecoder "right" Record.decoder
  have harr : m.arrivals spills = [a 10, a 20, b 5, b 10, a 30] := by decide
  have harr' : m.arrivals spills' = [b 5, a 10, a 20, a 30, b 10] := by decide
  have ho : (m.arrivals spills).Pairwise fun h h' => h.channel = h'.channel →
      h.timestamp ≤ h'.timestamp := by decide
  have ho' : (m.arrivals spills').Pairwise fun h h' => h.channel = h'.channel →
      h.timestamp ≤ h'.timestamp := by decide
  have hp : m.Promised [0, 1] spills := by
    refine ⟨by decide, fun c => List.pairwise_filter.mpr (ho.imp fun h hc hc' => ?_), by decide⟩
    simp only [decide_eq_true_eq] at hc hc'
    exact h (hc.trans hc'.symm)
  have hp' : m.Promised [1, 0, 2] spills' := by
    refine ⟨by decide, fun c => List.pairwise_filter.mpr (ho'.imp fun h hc hc' => ?_), by decide⟩
    simp only [decide_eq_true_eq] at hc hc'
    exact h (hc.trans hc'.symm)
  have hsame : ∀ c, Hit.onChannel c (m.arrivals spills') = Hit.onChannel c (m.arrivals spills) := by
    intro c
    rw [harr, harr']
    by_cases h0 : (0 : Channel) = c
    · subst h0
      decide
    · by_cases h1 : (1 : Channel) = c
      · subst h1
        decide
      · simp [a, b, Hit.onChannel_cons, h0, h1]
  obtain ⟨hpre, hend, hall⟩ := merged_canonically hm hp
  rw [harr] at hpre hend
  have hother := hall m [1, 0, 2] spills' hm hp' hsame
  exact ⟨hm, hp, hp', hpre _ _ (List.take_append_drop 2 spills).symm, hother.trans hend⟩

end ListMode.Merger
