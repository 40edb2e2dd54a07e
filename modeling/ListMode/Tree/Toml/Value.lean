import ListMode.Tree.Toml.Scalar

/-!
# What configuration text can hold

Not every tree is the value of some configuration text: there is no null, and whole numbers have 64
bits with sign. Dates are objects with one particular field, which stands first in no other object.
-/

namespace ListMode.Tree.Toml

/-- The date that an object with the field of a date stands for. -/
def dateOfFields? (text : Tree) (others : List (String × Tree)) : Option Tree :=
  match text, others with
  | .str s, [] =>
    match readMoment? s.toList with
    | some (t, []) => some t
    | _ => none
  | _, _ => none

mutual

/-- The tree as a value of configuration text. -/
def value? : Tree → Option Tree
  | .null => none
  | .int n => if n < 0x8000000000000000 then some (.int n) else none
  | .arr items => (values? items).map .arr
  | .obj ((name, t) :: fields) =>
    if name = dateField then dateOfFields? t fields
    else do
      let t ← value? t
      return .obj ((name, t) :: (← fieldValues? fields))
  | t => some t

def values? : List Tree → Option (List Tree)
  | [] => some []
  | t :: rest => do
    let t ← value? t
    return t :: (← values? rest)

def fieldValues? : List (String × Tree) → Option (List (String × Tree))
  | [] => some []
  | (name, t) :: rest => do
    let t ← value? t
    return (name, t) :: (← fieldValues? rest)

end

end ListMode.Tree.Toml
