import ListMode.Decimal.Nearest
import ListMode.Tree

/-!
# Reading typed values out of trees

A record is read from an object by field name, or from a list by position. Unknown fields are
ignored, a list may be shorter than the record where the rest has defaults, and `null` stands only
for a missing optional value. Whole numbers must be written as such and lie in the range of their
type; a floating-point number may be written as a whole one.
-/

namespace ListMode.Tree

/-! ## Scalars and lists -/

def toBool? : Tree → Option Bool
  | .bool b => some b
  | _ => none

def toStr? : Tree → Option String
  | .str s => some s
  | _ => none

/-- A whole number of the interval from `lo` to `hi`. -/
def toIntIn? (lo hi : Int) : Tree → Option Int
  | .int n => if lo ≤ n ∧ n ≤ hi then some n else none
  | _ => none

def toInt16? (t : Tree) : Option Int16 := (t.toIntIn? (-32768) 32767).map Int16.ofInt

/-- A natural number below `2 ^ bits`. -/
def toNat? (bits : Nat) (t : Tree) : Option Nat :=
  (t.toIntIn? 0 (Nat.pow 2 bits - 1 : Nat)).map Int.toNat

def toUInt16? (t : Tree) : Option UInt16 := (t.toNat? 16).map UInt16.ofNat

def toUInt64? (t : Tree) : Option UInt64 := (t.toNat? 64).map UInt64.ofNat

/-- A double; a whole number is rounded to the nearest one. -/
def toFloat? : Tree → Option Float
  | .int n => some (Decimal.toFloat (n < 0) n.natAbs 0)
  | .float x => some x
  | _ => none

def toListOf? (read : Tree → Option α) : Tree → Option (List α)
  | .arr items => items.mapM read
  | _ => none

def toOptionOf? (read : Tree → Option α) : Tree → Option (Option α)
  | .null => some none
  | t => (read t).map some

def toMapOf? (read : Tree → Option α) : Tree → Option (KeyMap String α)
  | .obj fields =>
    fields.foldlM (fun m (name, t) => (read t).map fun v => m.insert name v) ∅
  | _ => none

/-- The tree of a double. What is not finite has no written form and becomes `null`. -/
def ofFloat (x : Float) : Tree := if x.isFinite then .float x else .null

def ofMap (write : α → Tree) (m : KeyMap String α) : Tree :=
  .obj (m.entries.map fun (name, v) => (name, write v))

/-! ## Records -/

/-- The fields of a record, by name or by position. -/
inductive Parts where
  | named (fields : List (String × Tree))
  | placed (items : List Tree)

namespace Parts

/-- The parts of a record with `width` fields. -/
def ofTree? (width : Nat) : Tree → Option Parts
  | .obj fields => some (.named fields)
  | .arr items => if items.length ≤ width then some (.placed items) else none
  | _ => none

def get? (p : Parts) (index : Nat) (name : String) : Option Tree :=
  match p with
  | .named fields => field? name fields
  | .placed items => items[index]?

def required (p : Parts) (index : Nat) (name : String) (read : Tree → Option α) : Option α :=
  (p.get? index name).bind read

def orDefault (p : Parts) (index : Nat) (name : String) (default : α) (read : Tree → Option α) :
    Option α :=
  match p.get? index name with
  | none => some default
  | some t => read t

/-- An optional field: it may be missing from an object, but a list must hold its place. -/
def optional (p : Parts) (index : Nat) (name : String) (read : Tree → Option α) :
    Option (Option α) :=
  match p, p.get? index name with
  | .named _, none => some none
  | .placed _, none => none
  | _, some t => t.toOptionOf? read

end Parts

end ListMode.Tree
