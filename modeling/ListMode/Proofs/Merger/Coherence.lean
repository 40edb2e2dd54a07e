import ListMode.Proofs.Merger.Reception

/-!
# Coherence of a merger

`Coherent` is the representation invariant: the fronts are those of the lanes, every buffered hit
carries the number of a spill in flight, and a spill in flight knows how many of its hits are
buffered. Each step of a push and of the end keeps it. Draining is written as the release of one
list of spills (`drain_eq`), which depends on nothing but the spills in flight.
-/

namespace ListMode.Merger

/-- Numbers of the spills of all buffered hits. -/
def tags (m : Merger) : List Nat := (laned m.lanes).map (·.2)

/-- Lanes, fronts and spills in flight agree with each other. -/
structure Coherent (m : Merger) : Prop extends Fronted m where
  remaining_eq : ∀ seq e, m.inFlight.get? seq = some e → e.remaining = m.tags.count seq
  tag_mem : ∀ seq ∈ m.tags, seq ∈ m.inFlight.keys
  seq_lt : ∀ seq ∈ m.inFlight.keys, seq < m.nextSeq

/-- A spill without remaining hits has none in the lanes. -/
theorem Coherent.not_mem_tags {m : Merger} (h : m.Coherent) {seq : Nat} {e : InFlight}
    (he : m.inFlight.get? seq = some e) (hr : e.remaining = 0) : seq ∉ m.tags := by
  rw [h.remaining_eq seq e he] at hr
  exact List.count_eq_zero.mp hr

/-! ## Receiving -/

theorem Coherent.receive {m : Merger} (h : m.Coherent) (s : Spill) : (m.receive s).Coherent := by
  obtain ⟨-, -, hnext, -, -, -, hfl⟩ := receive_fields m s
  have htags : (m.receive s).tags.Perm
      (m.tags ++ List.replicate (m.decoded s).length m.nextSeq) := by
    have hp := (laned_receive m s).map (·.2)
    rw [List.map_append, List.map_map] at hp
    refine hp.trans (List.Perm.append_left _ (.of_eq ?_))
    exact List.eq_replicate_iff.mpr ⟨by simp, by simp⟩
  have hfresh : m.nextSeq ∉ m.tags := fun hm =>
    absurd (h.seq_lt _ (h.tag_mem _ hm)) (Nat.lt_irrefl _)
  refine ⟨fronted_receive h.toFronted s, ?_, ?_, ?_⟩
  · intro seq e he
    rw [hfl, KeyMap.get?_insert] at he
    rw [htags.count_eq, List.count_append, List.count_replicate]
    split at he
    · rename_i hseq
      subst hseq
      obtain rfl := Option.some.inj he
      rw [List.count_eq_zero.mpr hfresh]
      simp [entry]
    · rename_i hne
      rw [h.remaining_eq seq e he]
      simp [hne]
  · intro seq hseq
    rw [KeyMap.mem_keys_iff, hfl, KeyMap.get?_insert]
    split
    · exact ⟨_, rfl⟩
    · rename_i hne
      rw [htags.mem_iff, List.mem_append, List.mem_replicate] at hseq
      rcases hseq with hseq | ⟨-, hseq⟩
      · exact KeyMap.mem_keys_iff.mp (h.tag_mem seq hseq)
      · exact absurd hseq.symm hne
  · intro seq hseq
    rw [KeyMap.mem_keys_iff, hfl, KeyMap.get?_insert] at hseq
    rw [hnext]
    split at hseq
    · rename_i he
      omega
    · have := h.seq_lt seq (KeyMap.mem_keys_iff.mpr hseq)
      omega

/-! ## Merging -/

theorem get?_settle (inFlight : KeyMap Nat InFlight) (seq k : Nat) :
    (settle inFlight seq).get? k =
      if seq = k then (inFlight.get? k).map fun e => { e with remaining := e.remaining - 1 }
      else inFlight.get? k := by
  unfold settle
  cases he : inFlight.get? seq with
  | none =>
    dsimp only
    split
    · rename_i hk
      rw [← hk, he]
      rfl
    · rfl
  | some e =>
    dsimp only
    rw [KeyMap.get?_insert]
    split
    · rename_i hk
      rw [← hk, he]
      rfl
    · rfl

theorem keys_settle (inFlight : KeyMap Nat InFlight) (seq k : Nat) :
    k ∈ (settle inFlight seq).keys ↔ k ∈ inFlight.keys := by
  rw [KeyMap.mem_keys_iff, KeyMap.mem_keys_iff, get?_settle]
  split
  · cases inFlight.get? k <;> simp
  · rfl

theorem Coherent.emission {m m' : Merger} {hit : Hit} {seq : Nat} (h : m.Coherent)
    (he : Emission m hit seq m') (hf : m'.Fronted) : m'.Coherent := by
  have htags : m.tags.Perm (seq :: m'.tags) := he.laned_perm.map Prod.snd
  refine ⟨hf, ?_, ?_, ?_⟩
  · intro k e hk
    rw [he.inFlight_eq, get?_settle] at hk
    split at hk
    · rename_i hseq
      subst hseq
      obtain ⟨e', he', rfl⟩ := Option.map_eq_some_iff.mp hk
      have hr := h.remaining_eq seq e' he'
      rw [htags.count_eq, List.count_cons_self] at hr
      simp [hr]
    · rename_i hne
      rw [h.remaining_eq k e hk, htags.count_eq, List.count_cons_of_ne hne]
  · intro k hk
    rw [he.inFlight_eq, keys_settle]
    exact h.tag_mem k (htags.mem_iff.mpr (List.mem_cons_of_mem _ hk))
  · intro k hk
    rw [he.inFlight_eq, keys_settle] at hk
    rw [he.nextSeq_eq]
    exact h.seq_lt k hk

/-- What every emission keeps, merging keeps. -/
theorem Coherent.merge_induct {P : Merger → Prop} {m : Merger} (h : m.Coherent) (hp : P m)
    (step : ∀ m hit seq m', m.Coherent → P m → Emission m hit seq m' → P m') :
    P m.merge ∧ m.merge.Coherent ∧ m.merge.emit? = none := by
  have hind := h.toFronted.merge_induct (P := fun m => P m ∧ m.Coherent) ⟨hp, h⟩
    fun m hit seq m' hm he hf => ⟨step m hit seq m' hm.2 hm.1 he, hm.2.emission he hf⟩
  exact ⟨hind.1.1, hind.1.2, hind.2.2⟩

/-- What every emission keeps, any number of them keeps. -/
theorem Coherent.emitUpTo_induct {P : Merger → Prop} {m : Merger} (h : m.Coherent) (hp : P m)
    (step : ∀ m hit seq m', m.Coherent → P m → Emission m hit seq m' → P m') (n : Nat) :
    P (emitUpTo n m) ∧ (emitUpTo n m).Coherent := by
  induction n generalizing m with
  | zero => exact ⟨hp, h⟩
  | succ n ih =>
    rw [emitUpTo]
    cases he : m.emit? with
    | none => exact ⟨hp, h⟩
    | some m' =>
      obtain ⟨hit, seq, hem, hf⟩ := h.toFronted.emission he
      exact ih (h.emission hem hf) (step m hit seq m' h hp hem)

theorem Coherent.merge {m : Merger} (h : m.Coherent) : m.merge.Coherent :=
  (h.merge_induct (P := fun _ => True) trivial fun _ _ _ _ _ _ _ => trivial).2.1

/-- A finished merge has emitted everything unless it is held up. -/
theorem Coherent.lane_merge {m : Merger} (h : m.Coherent) :
    m.merge.isHeldUp = true ∨ ∀ c, m.merge.lane c = [] := by
  obtain ⟨-, hc, he⟩ :=
    h.merge_induct (P := fun _ => True) trivial fun _ _ _ _ _ _ _ => trivial
  exact hc.toFronted.of_emit?_eq_none he

/-! ## Draining -/

end Merger

/-- The spills that leave, oldest first, when `hold` holds spills back already. -/
def Hold.released (hold : Hold) : List (Nat × InFlight) → List (Nat × InFlight)
  | [] => []
  | x :: rest => if hold.releases x.2 then x :: hold.released rest else (hold.add x.2).released rest

namespace Merger

/-- Let a spill leave, with the hits that have been emitted. -/
def release (m : Merger) (x : Nat × InFlight) : Merger :=
  { m with inFlight := m.inFlight.erase x.1 }.deliver x.2.spill

/-- The spills in flight that the next drain lets go. -/
def leaving (m : Merger) : List (Nat × InFlight) := Hold.none.released m.inFlight.entries

theorem foldl_drainOne (m : Merger) (hold : Hold) (entries : List (Nat × InFlight)) :
    (entries.foldl drainOne (m, hold)).1 = (hold.released entries).foldl release m := by
  induction entries generalizing m hold with
  | nil => rfl
  | cons x rest ih =>
    rw [List.foldl_cons, Hold.released]
    split
    · rename_i hr
      rw [drainOne, if_pos hr, ih, List.foldl_cons]
      rfl
    · rename_i hr
      rw [drainOne, if_neg hr, ih]

/-- Draining releases the spills that leave, one after the other. -/
theorem drain_eq (m : Merger) : m.drain = m.leaving.foldl release m := foldl_drainOne m .none _

theorem released_sublist (hold : Hold) (entries : List (Nat × InFlight)) :
    (hold.released entries).Sublist entries := by
  induction entries generalizing hold with
  | nil => exact .slnil
  | cons x rest ih =>
    rw [Hold.released]
    split
    · exact (ih hold).cons_cons x
    · exact (ih _).cons x

theorem remaining_of_mem_released {hold : Hold} {entries : List (Nat × InFlight)}
    {x : Nat × InFlight} (hx : x ∈ hold.released entries) : x.2.remaining = 0 := by
  induction entries generalizing hold with
  | nil => cases hx
  | cons y rest ih =>
    rw [Hold.released] at hx
    split at hx
    · rename_i hr
      rcases List.mem_cons.mp hx with rfl | hx
      · rw [Hold.releases, Bool.and_eq_true, beq_iff_eq] at hr
        exact hr.1
      · exact ih hx
    · exact ih hx

theorem leaving_sublist (m : Merger) : m.leaving.Sublist m.inFlight.entries := released_sublist _ _

theorem get?_of_mem_leaving {m : Merger} {x : Nat × InFlight} (hx : x ∈ m.leaving) :
    m.inFlight.get? x.1 = some x.2 := by
  rw [KeyMap.get?_eq_some_iff]
  exact m.leaving_sublist.subset hx

theorem leaving_sorted (m : Merger) : m.leaving.Pairwise fun a b => a.1 < b.1 := by
  refine (m.inFlight.sorted.sublist m.leaving_sublist).imp fun h => ?_
  exact Nat.compare_eq_lt.mp h

section

variable (m : Merger) (x : Nat × InFlight)

theorem deliver_fields (m : Merger) (origin : Spill) :
    (m.deliver origin).decoders = m.decoders ∧ (m.deliver origin).inFlight = m.inFlight ∧
    (m.deliver origin).nextSeq = m.nextSeq ∧ (m.deliver origin).lanes = m.lanes ∧
    (m.deliver origin).fronts = m.fronts ∧ (m.deliver origin).output = [] ∧
    (m.deliver origin).closed = m.closed := by
  unfold deliver
  dsimp only
  split
  · exact ⟨rfl, rfl, rfl, rfl, rfl, rfl, rfl⟩
  · exact ⟨rfl, rfl, rfl, rfl, rfl, rfl, rfl⟩

theorem release_fields : (m.release x).decoders = m.decoders ∧
    (m.release x).inFlight = m.inFlight.erase x.1 ∧ (m.release x).nextSeq = m.nextSeq ∧
    (m.release x).lanes = m.lanes ∧ (m.release x).fronts = m.fronts ∧ (m.release x).output = [] ∧
    (m.release x).closed = m.closed :=
  deliver_fields { m with inFlight := m.inFlight.erase x.1 } x.2.spill

end

theorem Coherent.of_eq {m m' : Merger} (h : m.Coherent) (hl : m'.lanes = m.lanes)
    (hf : m'.fronts = m.fronts) (hi : m'.inFlight = m.inFlight) (hn : m'.nextSeq = m.nextSeq) :
    m'.Coherent := by
  obtain ⟨⟨h1, h2, h3⟩, h4, h5, h6⟩ := h
  refine ⟨⟨?_, ?_, ?_⟩, ?_, ?_, ?_⟩
  · intro c x hx
    rw [lane, hl] at hx
    exact h1 c x hx
  · rw [hf, hl]
    exact h2
  · rw [hf]
    exact h3
  · intro seq e he
    rw [hi] at he
    rw [tags, hl]
    exact h4 seq e he
  · intro seq hs
    rw [tags, hl] at hs
    rw [hi]
    exact h5 seq hs
  · intro seq hs
    rw [hi] at hs
    rw [hn]
    exact h6 seq hs

/-- A spill may leave when none of its hits is buffered. -/
theorem Coherent.release {m : Merger} {x : Nat × InFlight} (h : m.Coherent)
    (hx : m.inFlight.get? x.1 = some x.2) (hr : x.2.remaining = 0) : (m.release x).Coherent := by
  have hx' := h.not_mem_tags hx hr
  have hc : ({ m with inFlight := m.inFlight.erase x.1 } : Merger).Coherent := by
    refine ⟨⟨h.channel_eq, h.fronts_perm, h.fronts_sorted⟩, ?_, ?_, ?_⟩
    · intro seq e he
      rw [KeyMap.get?_erase] at he
      split at he
      · cases he
      · exact h.remaining_eq seq e he
    · intro seq hs
      have hne : x.1 ≠ seq := fun he => hx' (he ▸ hs)
      rw [KeyMap.mem_keys_iff, KeyMap.get?_erase, if_neg hne]
      exact KeyMap.mem_keys_iff.mp (h.tag_mem seq hs)
    · intro seq hs
      rw [KeyMap.mem_keys_iff, KeyMap.get?_erase] at hs
      split at hs
      · obtain ⟨_, hs⟩ := hs
        cases hs
      · exact h.seq_lt seq (KeyMap.mem_keys_iff.mpr hs)
  obtain ⟨-, hi, hn, hl, hf, -, -⟩ := release_fields m x
  exact hc.of_eq hl hf hi hn

/-- What releasing a spill without remaining hits keeps, draining keeps. -/
theorem Coherent.drain_induct {P : Merger → Prop} {m : Merger} (h : m.Coherent) (hp : P m)
    (step : ∀ m x, m.Coherent → P m → m.inFlight.get? x.1 = some x.2 → x.2.remaining = 0 →
      P (m.release x)) : P m.drain ∧ m.drain.Coherent := by
  have key : ∀ (l : List (Nat × InFlight)) (m : Merger), m.Coherent → P m →
      (l.Pairwise fun a b => a.1 < b.1) →
      (∀ x ∈ l, m.inFlight.get? x.1 = some x.2 ∧ x.2.remaining = 0) →
      P (l.foldl Merger.release m) ∧ (l.foldl Merger.release m).Coherent := by
    intro l
    induction l with
    | nil => intro m h hp _ _; exact ⟨hp, h⟩
    | cons x rest ih =>
      intro m h hp hs hl
      obtain ⟨hx, hr⟩ := hl x (by simp)
      obtain ⟨hlt, hs⟩ := List.pairwise_cons.mp hs
      refine ih _ (h.release hx hr) (step m x h hp hx hr) hs fun y hy => ?_
      obtain ⟨hy', hyr⟩ := hl y (by simp [hy])
      have hne : x.1 ≠ y.1 := Nat.ne_of_lt (hlt y hy)
      refine ⟨?_, hyr⟩
      rw [(release_fields m x).2.1, KeyMap.get?_erase, if_neg hne]
      exact hy'
  rw [drain_eq]
  exact key m.leaving m h hp m.leaving_sorted fun x hx =>
    ⟨get?_of_mem_leaving hx, remaining_of_mem_released hx⟩

theorem Coherent.drain {m : Merger} (h : m.Coherent) : m.drain.Coherent :=
  (h.drain_induct (P := fun _ => True) trivial fun _ _ _ _ _ _ => trivial).2

/-! ## Pushing -/

theorem Coherent.push {m : Merger} (h : m.Coherent) (s : Spill) : (m.push s).Coherent :=
  (h.receive s).merge.drain

theorem Coherent.pushAll {m : Merger} (h : m.Coherent) (spills : List Spill) :
    (m.pushAll spills).Coherent := by
  induction spills generalizing m with
  | nil => exact h
  | cons s rest ih => exact ih (h.push s)

/-- `m` with its input closed. -/
def close (m : Merger) : Merger := { m with closed := true }

theorem Coherent.close {m : Merger} (h : m.Coherent) : m.close.Coherent :=
  h.of_eq rfl rfl rfl rfl

end Merger

end ListMode
