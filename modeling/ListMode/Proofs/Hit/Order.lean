import ListMode.Hit

/-!
# The merged order of hits

Keys are ordered by time stamp and then by channel. A list sorted by key is determined by what each
channel contributes to it (`eq_of_onChannel_eq`): hits with one key are of one channel, so nothing
is left open between channels. The stable sort is therefore the only sorted list with the channels
of a given list (`eq_sortByKey`).
-/

namespace ListMode

namespace Hit.Key

instance : Std.TransOrd Hit.Key :=
  inferInstanceAs (Std.TransCmp (compareLex (compareOn timestamp) (compareOn channel)))

instance : LE Hit.Key := ⟨fun a b => (compare a b).isLE⟩

instance (a b : Hit.Key) : Decidable (a ≤ b) :=
  inferInstanceAs (Decidable ((compare a b).isLE = true))

theorem le_iff {a b : Hit.Key} : a ≤ b ↔ (compare a b).isLE := Iff.rfl

theorem le_refl (a : Hit.Key) : a ≤ a := Std.ReflCmp.isLE_rfl

theorem le_trans {a b c : Hit.Key} (h : a ≤ b) (h' : b ≤ c) : a ≤ c := Std.TransCmp.isLE_trans h h'

theorem le_of_not_le {a b : Hit.Key} (h : ¬a ≤ b) : b ≤ a :=
  Ordering.isLE_of_eq_lt (Std.OrientedCmp.lt_of_not_isLE h)

theorem le_total (a b : Hit.Key) : a ≤ b ∨ b ≤ a := by
  by_cases h : a ≤ b
  · exact .inl h
  · exact .inr (le_of_not_le h)

theorem le_antisymm {a b : Hit.Key} (h : a ≤ b) (h' : b ≤ a) : a = b := by
  have he : compare a b = .eq := Std.OrientedCmp.isLE_antisymm h h'
  obtain ⟨ht, hc⟩ := Ordering.then_eq_eq.mp he
  obtain ⟨t, c⟩ := a
  obtain ⟨t', c'⟩ := b
  rw [Hit.Key.mk.injEq]
  exact ⟨Std.LawfulEqOrd.eq_of_compare ht, Std.LawfulEqOrd.eq_of_compare hc⟩

/-- Of one channel, the earlier key comes first. -/
theorem le_of_timestamp_le {t t' : UInt64} (h : t ≤ t') (c : Channel) :
    (⟨t, c⟩ : Hit.Key) ≤ ⟨t', c⟩ := by
  refine Ordering.isLE_then_iff_and.mpr ⟨?_, .inr Std.ReflCmp.isLE_rfl⟩
  change (compareOfLessAndEq t t').isLE = true
  unfold compareOfLessAndEq
  split
  · rfl
  · rename_i hlt
    have he : t = t' := by
      rw [UInt64.lt_iff_toNat_lt] at hlt
      rw [UInt64.le_iff_toNat_le] at h
      exact UInt64.toNat_inj.mp (by omega)
    rw [if_pos he]
    rfl

end Hit.Key

namespace Hit

theorem mem_onChannel {c : Channel} {l : List Hit} {h : Hit} :
    h ∈ onChannel c l ↔ h ∈ l ∧ h.channel = c := by
  simp [onChannel]

@[simp] theorem onChannel_nil (c : Channel) : onChannel c [] = [] := rfl

@[simp] theorem onChannel_append (c : Channel) (l l' : List Hit) :
    onChannel c (l ++ l') = onChannel c l ++ onChannel c l' := List.filter_append ..

theorem onChannel_cons (c : Channel) (h : Hit) (l : List Hit) :
    onChannel c (h :: l) = if h.channel = c then h :: onChannel c l else onChannel c l := by
  simp only [onChannel, List.filter_cons, decide_eq_true_eq]

theorem key_le_of_timestamp_le {a b : Hit} (hc : a.channel = b.channel)
    (ht : a.timestamp ≤ b.timestamp) : a.key ≤ b.key := by
  unfold key
  rw [hc]
  exact Key.le_of_timestamp_le ht b.channel

/-- A list sorted by key is determined by the hits of each channel. -/
theorem eq_of_onChannel_eq {l l' : List Hit} (hl : l.Pairwise (·.key ≤ ·.key))
    (hl' : l'.Pairwise (·.key ≤ ·.key)) (h : ∀ c, onChannel c l = onChannel c l') : l = l' := by
  induction l generalizing l' with
  | nil =>
    cases l' with
    | nil => rfl
    | cons y t =>
      have hy := h y.channel
      simp [onChannel_cons] at hy
  | cons x s ih =>
    have hx := h x.channel
    rw [onChannel_cons, if_pos rfl] at hx
    cases l' with
    | nil => simp at hx
    | cons y t =>
      obtain ⟨hxs, hs⟩ := List.pairwise_cons.mp hl
      obtain ⟨hyt, ht⟩ := List.pairwise_cons.mp hl'
      -- Each head occurs in the other list, so the heads have one key and thus one channel.
      have hyx : y.key ≤ x.key := by
        have hmem : x ∈ y :: t := by
          have : x ∈ onChannel x.channel (y :: t) := by rw [← hx]; simp
          exact (mem_onChannel.mp this).1
        rcases List.mem_cons.mp hmem with rfl | hmem
        · exact Key.le_refl _
        · exact hyt x hmem
      have hxy : x.key ≤ y.key := by
        have hmem : y ∈ x :: s := by
          have : y ∈ onChannel y.channel (x :: s) := by
            rw [h y.channel, onChannel_cons, if_pos rfl]
            simp
          exact (mem_onChannel.mp this).1
        rcases List.mem_cons.mp hmem with rfl | hmem
        · exact Key.le_refl _
        · exact hxs y hmem
      have hc : y.channel = x.channel := congrArg Key.channel (Key.le_antisymm hyx hxy)
      rw [onChannel_cons, if_pos hc, List.cons.injEq] at hx
      obtain rfl := hx.1
      have htail : ∀ c, onChannel c s = onChannel c t := by
        intro c
        have hcs := h c
        rw [onChannel_cons, onChannel_cons] at hcs
        split at hcs
        · exact List.tail_eq_of_cons_eq hcs
        · exact hcs
      rw [ih hs ht htail]

theorem isLE_or_isLE (a b : Hit) :
    ((compare a.key b.key).isLE || (compare b.key a.key).isLE) = true := by
  rcases Key.le_total a.key b.key with h | h
  · simp [Key.le_iff.mp h]
  · simp [Key.le_iff.mp h]

theorem pairwise_sortByKey (l : List Hit) : (sortByKey l).Pairwise (·.key ≤ ·.key) := by
  apply List.pairwise_mergeSort
  · exact fun a b c => Key.le_trans
  · exact isLE_or_isLE

theorem sortByKey_perm (l : List Hit) : (sortByKey l).Perm l := List.mergeSort_perm l _

/-- The sort is stable: hits of a sorted channel stay in their order. -/
theorem onChannel_sortByKey {c : Channel} {l : List Hit}
    (h : (onChannel c l).Pairwise (·.key ≤ ·.key)) :
    onChannel c (sortByKey l) = onChannel c l := by
  have hsub : (onChannel c l).Sublist (sortByKey l) := by
    apply List.sublist_mergeSort
    · exact fun a b c => Key.le_trans
    · exact isLE_or_isLE
    · exact h
    · exact List.filter_sublist
  have hsub' : (onChannel c l).Sublist (onChannel c (sortByKey l)) := by
    have := hsub.filter (·.channel = c)
    rwa [show (onChannel c l).filter (·.channel = c) = onChannel c l by simp [onChannel]] at this
  exact (hsub'.eq_of_length ((sortByKey_perm l).filter _).length_eq.symm).symm

/-- The stable sort is the only sorted list with the channels of `l`. -/
theorem eq_sortByKey {l l' : List Hit} (hl : l.Pairwise (·.key ≤ ·.key))
    (h : ∀ c, onChannel c l = onChannel c l') : l = sortByKey l' := by
  refine eq_of_onChannel_eq hl (pairwise_sortByKey l') fun c => ?_
  have hc : (onChannel c l').Pairwise (·.key ≤ ·.key) := by
    rw [← h c]
    exact hl.sublist List.filter_sublist
  rw [h c, onChannel_sortByKey hc]

end Hit

end ListMode
