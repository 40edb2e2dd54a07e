import ListMode.Proofs.KeyMap
import ListMode.Tree.Parts

/-!
# Objects and scalars

An object is a map from names to trees, so its fields are looked up like those of a map. Whole
numbers in the range of their type, finite floating-point numbers, lists and optional values read
back from their trees as they were written.
-/

namespace ListMode.Tree

/-! ## Objects -/

/-- The fields of an object are the entries of the map of what it was made of. -/
theorem object_eq (fields : List (String × Tree)) :
    object fields = .obj (KeyMap.ofList fields).entries := by
  have hfold : ∀ m : KeyMap String Tree,
      fields.foldl (fun acc e => setField e.1 e.2 acc) m.entries =
        (fields.foldl (fun m e => m.insert e.1 e.2) m).entries := by
    induction fields with
    | nil => exact fun _ => rfl
    | cons e rest ih => exact fun m => ih (m.insert e.1 e.2)
  exact congrArg Tree.obj (hfold ∅)

/-- An object whose names differ has every one of its fields. -/
theorem field?_ofList {fields : List (String × Tree)} (hnames : (fields.map (·.1)).Nodup)
    {name : String} {t : Tree} (h : (name, t) ∈ fields) :
    field? name (KeyMap.ofList fields).entries = some t :=
  KeyMap.get?_ofList_of_mem hnames h

/-- A tree without the fields of the given names. -/
def without (names : List String) : Tree → Tree
  | .obj fields => .obj (fields.filter (·.1 ∉ names))
  | t => t

theorem without_object (names : List String) (fields : List (String × Tree)) :
    (object fields).without names = object (fields.filter (·.1 ∉ names)) := by
  rw [object_eq, object_eq, ← KeyMap.filter_ofList fun name => decide (name ∉ names)]
  rfl

/-! ## Scalars -/

theorem toIntIn?_int {lo hi n : Int} (hlo : lo ≤ n) (hhi : n ≤ hi) :
    (Tree.int n).toIntIn? lo hi = some n := if_pos ⟨hlo, hhi⟩

theorem toInt16?_int (n : Int16) : (Tree.int n.toInt).toInt16? = some n := by
  have hlo := n.le_toInt
  have hhi := n.toInt_lt
  unfold toInt16?
  rw [toIntIn?_int (by omega) (by omega)]
  exact congrArg some (Int16.ofInt_toInt n)

theorem toNat?_int {bits n : Nat} (h : n < Nat.pow 2 bits) : (Tree.int n).toNat? bits = some n := by
  have hhi : (n : Int) ≤ (Nat.pow 2 bits - 1 : Nat) := Int.ofNat_le.mpr (Nat.le_sub_one_of_lt h)
  unfold toNat?
  rw [toIntIn?_int (Int.natCast_nonneg n) hhi]
  rfl

theorem toNat?_lt {bits n : Nat} {t : Tree} (h : t.toNat? bits = some n) : n < Nat.pow 2 bits := by
  have hpow : 0 < Nat.pow 2 bits := Nat.two_pow_pos bits
  obtain ⟨m, hm, rfl⟩ := Option.map_eq_some_iff.mp h
  unfold toIntIn? at hm
  split at hm
  · split at hm
    · rename_i hrange
      obtain rfl := Option.some.inj hm
      omega
    · nomatch hm
  · nomatch hm

theorem toUInt16?_int (n : UInt16) : (Tree.int n.toNat).toUInt16? = some n := by
  unfold toUInt16?
  rw [toNat?_int n.toNat_lt]
  exact congrArg some UInt16.ofNat_toNat

theorem toUInt64?_int (n : UInt64) : (Tree.int n.toNat).toUInt64? = some n := by
  unfold toUInt64?
  rw [toNat?_int n.toNat_lt]
  exact congrArg some UInt64.ofNat_toNat

theorem toFloat?_ofFloat {x : Float} (h : x.isFinite = true) : (ofFloat x).toFloat? = some x := by
  unfold ofFloat
  rw [if_pos h]
  rfl

/-! ## Lists and optional values -/

section

variable {α : Type} {read : Tree → Option α} {write : α → Tree}

theorem toListOf?_map (h : ∀ a, read (write a) = some a) (l : List α) :
    (Tree.arr (l.map write)).toListOf? read = some l := by
  show (l.map write).mapM read = some l
  rw [List.mapM_map]
  induction l with
  | nil => rfl
  | cons a rest ih =>
    rw [List.mapM_cons, ih, Function.comp, h]
    rfl

theorem toOptionOf?_ofOption {o : Option α} (h : ∀ a ∈ o, read (write a) = some a)
    (hnull : ∀ a, write a ≠ .null) : (ofOption write o).toOptionOf? read = some o := by
  cases o with
  | none => rfl
  | some a =>
    have hread : (write a).toOptionOf? read = (read (write a)).map some := by
      unfold toOptionOf?
      split
      · rename_i he
        exact absurd he (hnull a)
      · rfl
    show (write a).toOptionOf? read = _
    rw [hread, h a rfl]
    rfl

/-- What is read as an optional value is nothing or can be read. -/
theorem mem_of_toOptionOf? {t : Tree} {o : Option α} (h : t.toOptionOf? read = some o) {a : α}
    (ha : a ∈ o) : read t = some a := by
  unfold toOptionOf? at h
  split at h
  · obtain rfl := Option.some.inj h
    nomatch ha
  · obtain ⟨b, hb, rfl⟩ := Option.map_eq_some_iff.mp h
    obtain rfl := Option.some.inj ha
    exact hb

end

end ListMode.Tree
