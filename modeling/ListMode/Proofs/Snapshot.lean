import Mathlib.Algebra.Ring.Basic
import Mathlib.Tactic.Abel
import ListMode.Proofs.KeyMap
import ListMode.Snapshot

/-!
# Sums and differences of snapshots

A combination looks at each name once: what it stores there depends only on what the two snapshots
store there (`counter?_combine`). Over exact numbers a chain of snapshots can therefore be told by
its first snapshot and the differences between neighbours, whatever counters come and go on the way.
-/

namespace ListMode

/-- Numbers that are added and multiplied without rounding, such as whole ones and fractions. -/
def Arithmetic.exact (R : Type) [Ring R] : Arithmetic R := ⟨0, 1, (· + ·), (· * ·), (- ·)⟩

theorem Arithmetic.int_eq_exact : Arithmetic.int = .exact Int := rfl

namespace Snapshot

/-! ## One combination -/

section

variable {V : Type} (ops : Arithmetic V) (sign : V)

/-- A counter with `sign` times another one added, where either may be missing. -/
def combined? (old : Option V) : Option V → Option V
  | none => old
  | some value => some (ops.add (old.getD ops.zero) (ops.mul sign value))

theorem get?_bump (counters : KeyMap String V) (e : String × V) (name : String) :
    (bump ops sign counters e).get? name =
      if e.1 = name then combined? ops sign (counters.get? name) (some e.2)
      else counters.get? name := by
  rw [bump, KeyMap.get?_alter]
  split
  · rename_i hname
    rw [hname]
    rfl
  · rfl

/-- Of entries with different names, at most one touches a counter. -/
theorem get?_foldl_bump (counters : KeyMap String V) {entries : List (String × V)}
    (h : entries.Pairwise fun a b => compare a.1 b.1 = .lt) (name : String) :
    (entries.foldl (bump ops sign) counters).get? name =
      combined? ops sign (counters.get? name) (KeyMap.lookup name entries) := by
  induction entries generalizing counters with
  | nil => rfl
  | cons e rest ih =>
    obtain ⟨key, value⟩ := e
    obtain ⟨hlt, hrest⟩ := List.pairwise_cons.mp h
    rw [List.foldl_cons, ih (bump ops sign counters (key, value)) hrest, get?_bump, KeyMap.lookup]
    by_cases hkey : key = name
    · subst hkey
      have hnone : KeyMap.lookup key rest = none := KeyMap.lookup_eq_none_of_lt hlt
      rw [hnone, if_pos rfl, if_pos Std.ReflOrd.compare_self]
      rfl
    · have hne : compare name key ≠ .eq := fun he => hkey (Std.LawfulEqOrd.eq_of_compare he).symm
      rw [if_neg hkey, if_neg hne]

variable (a b : Snapshot V)

theorem counter?_combine (name : String) :
    (combine ops sign a b).counter? name =
      combined? ops sign (a.counter? name) (b.counter? name) :=
  get?_foldl_bump ops sign a.counters b.counters.sorted name

theorem mem_keys_combine {name : String} : name ∈ (combine ops sign a b).counters.keys ↔
    name ∈ a.counters.keys ∨ name ∈ b.counters.keys := by
  have hcounter : (combine ops sign a b).counters.get? name =
      combined? ops sign (a.counters.get? name) (b.counters.get? name) :=
    counter?_combine ops sign a b name
  rw [KeyMap.mem_keys_iff, KeyMap.mem_keys_iff, KeyMap.mem_keys_iff, hcounter]
  cases b.counters.get? name <;> simp [combined?]

/-- `c` is `a` with `sign` times `b` added: it has the counters of both, each combined once, and is
otherwise a snapshot of the moment of `a`. -/
structure Combines (c : Snapshot V) : Prop where
  mem_keys_iff : ∀ name, name ∈ c.counters.keys ↔ name ∈ a.counters.keys ∨ name ∈ b.counters.keys
  left : ∀ name v, a.counter? name = some v → b.counter? name = none → c.counter? name = some v
  right : ∀ name w, a.counter? name = none → b.counter? name = some w →
    c.counter? name = some (ops.add ops.zero (ops.mul sign w))
  both : ∀ name v w, a.counter? name = some v → b.counter? name = some w →
    c.counter? name = some (ops.add v (ops.mul sign w))
  rate_eq : c.rate = ops.add a.rate (ops.mul sign b.rate)
  channel_eq : c.channel = a.channel
  kind_eq : c.kind = a.kind
  labTime_eq : c.labTime = a.labTime
  spillNumber_eq : c.spillNumber = a.spillNumber

theorem combines_combine : Combines ops sign a b (combine ops sign a b) where
  mem_keys_iff _ := mem_keys_combine ops sign a b
  left name v ha hb := by rw [counter?_combine, ha, hb, combined?]
  right name w ha hb := by rw [counter?_combine, ha, hb, combined?, Option.getD_none]
  both name v w ha hb := by rw [counter?_combine, ha, hb, combined?, Option.getD_some]
  rate_eq := rfl
  channel_eq := rfl
  kind_eq := rfl
  labTime_eq := rfl
  spillNumber_eq := rfl

end

/-! ## Chains of snapshots -/

/-- What each snapshot of a chain differs by from the one before it. -/
def deltas {V : Type} (ops : Arithmetic V) (first : Snapshot V) (rest : List (Snapshot V)) :
    List (Snapshot V) :=
  rest.zipWith (fun later earlier => later.sub ops earlier) (first :: rest)

theorem deltas_cons {V : Type} (ops : Arithmetic V) (first s : Snapshot V)
    (rest : List (Snapshot V)) :
    deltas ops first (s :: rest) = s.sub ops first :: deltas ops s rest := rfl

section

variable {R : Type} [Ring R]

/-- Value of a counter, which is zero if it is missing. -/
def value (s : Snapshot R) (name : String) : R := (s.counter? name).getD 0

theorem value_combine (sign : R) (a b : Snapshot R) (name : String) :
    (combine (.exact R) sign a b).value name = a.value name + sign * b.value name := by
  unfold value
  rw [counter?_combine]
  cases hb : b.counter? name with
  | none => simp [combined?]
  | some w => rfl

theorem value_add (a b : Snapshot R) (name : String) :
    (a.add (.exact R) b).value name = a.value name + b.value name :=
  (value_combine 1 a b name).trans (by rw [one_mul])

theorem value_sub (a b : Snapshot R) (name : String) :
    (a.sub (.exact R) b).value name = a.value name - b.value name :=
  (value_combine (-1) a b name).trans (by rw [neg_one_mul, sub_eq_add_neg])

/-- The deltas of a chain lead from the values of its first snapshot to those of its last. -/
theorem value_foldl_deltas (total first : Snapshot R) (rest : List (Snapshot R)) (name : String) :
    ((deltas (.exact R) first rest).foldl (add (.exact R)) total).value name =
      total.value name + ((rest.getLastD first).value name - first.value name) := by
  induction rest generalizing total first with
  | nil =>
    show total.value name = total.value name + (first.value name - first.value name)
    rw [sub_self, add_zero]
  | cons s rest ih =>
    rw [deltas_cons, List.foldl_cons, ih, value_add, value_sub, List.getLastD_cons]
    abel

theorem mem_keys_foldl_deltas {total first : Snapshot R} {name : String}
    (h : name ∈ first.counters.keys → name ∈ total.counters.keys) (rest : List (Snapshot R)) :
    name ∈ ((deltas (.exact R) first rest).foldl (add (.exact R)) total).counters.keys ↔
      name ∈ total.counters.keys ∨ ∃ s ∈ rest, name ∈ s.counters.keys := by
  induction rest generalizing total first with
  | nil => simp [deltas]
  | cons s rest ih =>
    have hkeys : name ∈ (total.add (.exact R) (s.sub (.exact R) first)).counters.keys ↔
        name ∈ total.counters.keys ∨ name ∈ s.counters.keys := by
      rw [add, mem_keys_combine, sub, mem_keys_combine]
      constructor
      · rintro (htotal | hs | hfirst)
        · exact .inl htotal
        · exact .inr hs
        · exact .inl (h hfirst)
      · rintro (htotal | hs)
        · exact .inl htotal
        · exact .inr (.inl hs)
    rw [deltas_cons, List.foldl_cons, ih fun hs => hkeys.mpr (.inr hs), hkeys, or_assoc,
      List.exists_mem_cons_iff]

theorem counter?_of_mem_keys {s : Snapshot R} {name : String} (h : name ∈ s.counters.keys) :
    s.counter? name = some (s.value name) := by
  obtain ⟨v, hv⟩ := KeyMap.mem_keys_iff.mp h
  have hcounter : s.counter? name = some v := hv
  rw [value, hcounter, Option.getD_some]

end

/-- Sums and differences have the counters of both sides, each combined once, whatever the values
are. Over exact numbers, the first snapshot of a chain and all its deltas give the counters of the
last one, and zero for every other counter that occurs in the chain. -/
theorem told_by_deltas :
    (∀ {V : Type} (ops : Arithmetic V) (a b : Snapshot V),
      Combines ops ops.one a b (a.add ops b) ∧
      Combines ops (ops.neg ops.one) a b (a.sub ops b)) ∧
    ∀ {R : Type} [Ring R] (first : Snapshot R) (rest : List (Snapshot R)),
      let last := rest.getLastD first
      let total := (deltas (.exact R) first rest).foldl (add (.exact R)) first
      (∀ name v, last.counter? name = some v → total.counter? name = some v) ∧
      (∀ name, last.counter? name = none → (∃ s ∈ first :: rest, name ∈ s.counters.keys) →
        total.counter? name = some 0) ∧
      ∀ name, name ∈ total.counters.keys ↔ ∃ s ∈ first :: rest, name ∈ s.counters.keys := by
  refine ⟨fun ops a b => ⟨combines_combine .., combines_combine ..⟩, ?_⟩
  intro R _ first rest last total
  have hkeys : ∀ name, name ∈ total.counters.keys ↔
      ∃ s ∈ first :: rest, name ∈ s.counters.keys := by
    intro name
    rw [List.exists_mem_cons_iff]
    exact mem_keys_foldl_deltas id rest
  have hvalue : ∀ name, total.value name = last.value name := by
    intro name
    refine (value_foldl_deltas first first rest name).trans ?_
    abel
  have hlast : last ∈ first :: rest := List.getLastD_mem_cons
  refine ⟨fun name v hv => ?_, fun name hnone hsome => ?_, hkeys⟩
  · have hmem : name ∈ total.counters.keys :=
      (hkeys name).mpr ⟨last, hlast, KeyMap.mem_keys_iff.mpr ⟨v, hv⟩⟩
    rw [counter?_of_mem_keys hmem, hvalue, value, hv, Option.getD_some]
  · rw [counter?_of_mem_keys ((hkeys name).mpr hsome), hvalue, value, hnone, Option.getD_none]

end Snapshot

end ListMode
