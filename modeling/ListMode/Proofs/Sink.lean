import Mathlib.Algebra.GroupWithZero.Nat
import Mathlib.Data.List.Perm.Subperm
import ListMode.Proofs.Hit.Order
import ListMode.Proofs.KeyMap
import ListMode.Sink

/-!
# Archive and tally agree

A sink that is told spills one after the other archives them all and tallies their hits
(`foldl_add`). The tally of a channel is the number of its hits, and the tallies of all channels
together are the number of all hits.
-/

namespace ListMode

namespace Hit

theorem count_onChannel (h : Hit) (l : List Hit) : (onChannel h.channel l).count h = l.count h := by
  apply List.count_filter
  simp

/-- Lists with the same hits on every channel have the same hits. -/
theorem perm_of_onChannel_eq {l l' : List Hit} (h : ∀ c, onChannel c l = onChannel c l') :
    l.Perm l' := by
  apply List.perm_iff_count.mpr
  intro x
  rw [← count_onChannel x l, h, count_onChannel]

/-- A list that has at most the hits of another on every channel is not longer. -/
theorem length_le_of_onChannel {l l' : List Hit} (h : ∀ c, onChannel c l <+: onChannel c l') :
    l.length ≤ l'.length := by
  have hsub : l.Subperm l' := by
    apply List.subperm_ext_iff.mpr
    intro x _
    rw [← count_onChannel x l, ← count_onChannel x l']
    exact (h x.channel).sublist.count_le x
  exact hsub.length_le

end Hit

/-! ## Counting hits -/

namespace Tally

/-- The counts after more hits. -/
def countAll (counts : KeyMap Channel Nat) (hits : List Hit) : KeyMap Channel Nat :=
  hits.foldl countHit counts

/-- The count of a channel grows by its hits, and a channel without any hit has no count. -/
theorem get?_countAll (counts : KeyMap Channel Nat) (hits : List Hit) (c : Channel) :
    (countAll counts hits).get? c =
      if Hit.onChannel c hits = [] then counts.get? c
      else some ((counts.get? c).getD 0 + (Hit.onChannel c hits).length) := by
  induction hits generalizing counts with
  | nil => rfl
  | cons h rest ih =>
    have hstep : countAll counts (h :: rest) = countAll (countHit counts h) rest := rfl
    rw [hstep, ih, countHit, KeyMap.get?_alter, Hit.onChannel_cons]
    by_cases hc : h.channel = c
    · subst hc
      by_cases hr : Hit.onChannel h.channel rest = []
      · simp [hr]
      · simp [hr]
        omega
    · simp [hc]

/-- The counts of all channels grow by all hits. -/
theorem sum_countAll (counts : KeyMap Channel Nat) (hits : List Hit) :
    (countAll counts hits).values.sum = counts.values.sum + hits.length := by
  induction hits generalizing counts with
  | nil => rfl
  | cons h rest ih =>
    have hstep : countAll counts (h :: rest) = countAll (countHit counts h) rest := rfl
    obtain ⟨pre, post, hold, hnew⟩ := counts.alter_split h.channel fun n => n.getD 0 + 1
    have hone : (countHit counts h).values.sum = counts.values.sum + 1 := by
      rw [countHit, KeyMap.values, KeyMap.values, hnew, hold]
      cases counts.get? h.channel with
      | none =>
        simp
        omega
      | some n =>
        simp
        omega
    rw [hstep, ih, hone, List.length_cons]
    omega

end Tally

/-! ## Being told -/

namespace Sink

/-- The sink is told of one more spill. -/
def Call.isAdd : Call → Bool
  | .add _ => true
  | .flush => false
  | .close => false

/-- What a sink has that is told `handed`, one after the other. -/
theorem foldl_add (k : Sink) (handed : List Spill) :
    handed.foldl add k = {
      archive := { k.archive with spills := k.archive.spills ++ handed }
      tally := ⟨Tally.countAll k.tally.counts (handed.flatMap Spill.hits),
        k.tally.spills + handed.length⟩
      calls := k.calls ++ handed.map .add } := by
  induction handed generalizing k with
  | nil => simp [Tally.countAll]
  | cons s rest ih =>
    rw [List.foldl_cons, ih]
    simp [add, Archive.add, Tally.add, Tally.countAll, List.foldl_append]
    omega

theorem calls_foldl_add (k : Sink) (handed : List Spill) :
    (handed.foldl add k).calls = k.calls ++ handed.map .add := by
  rw [foldl_add]

/-- From its beginning the sink has been told of `handed`, and whatever it keeps says so. -/
structure Holds (k : Sink) (handed : List Spill) : Prop where
  archive_eq : k.archive.spills = handed
  adds_eq : k.calls.countP (·.isAdd) = handed.length
  spills_eq : k.tally.spills = handed.length
  counts_eq : k.tally.counts = Tally.countAll ∅ (handed.flatMap Spill.hits)

theorem holds_foldl_add (handed : List Spill) : (handed.foldl add .empty).Holds handed := by
  rw [foldl_add]
  refine ⟨rfl, ?_, Nat.zero_add _, rfl⟩
  show ([] ++ handed.map Call.add).countP Call.isAdd = _
  rw [List.nil_append, List.countP_map]
  exact List.countP_eq_length.mpr fun _ _ => rfl

theorem Holds.flush {k : Sink} {handed : List Spill} (h : k.Holds handed) :
    k.flush.Holds handed := by
  refine ⟨h.archive_eq, ?_, h.spills_eq, h.counts_eq⟩
  show (k.calls ++ [Call.flush]).countP Call.isAdd = _
  rw [List.countP_append, h.adds_eq]
  rfl

section

variable {k : Sink} {handed : List Spill}

theorem Holds.hits_eq (h : k.Holds handed) : k.archive.hits = handed.flatMap Spill.hits := by
  rw [Archive.hits, h.archive_eq]

/-- The tally counts every archived hit once. -/
theorem Holds.sum_eq (h : k.Holds handed) :
    k.tally.counts.values.sum = k.archive.hits.length := by
  rw [h.counts_eq, h.hits_eq, Tally.sum_countAll]
  exact Nat.zero_add _

/-- The tally has a count for exactly the channels with archived hits, and it is their number. -/
theorem Holds.count_iff (h : k.Holds handed) (c : Channel) (n : Nat) :
    k.tally.counts.get? c = some n ↔
      0 < n ∧ n = (Hit.onChannel c k.archive.hits).length := by
  rw [h.counts_eq, h.hits_eq, Tally.get?_countAll]
  split
  · rename_i hnone
    simp [hnone]
    omega
  · rename_i hsome
    have hpos := List.length_pos_iff.mpr hsome
    simp
    omega

end

end Sink

end ListMode
