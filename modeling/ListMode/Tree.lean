import ListMode.KeyMap

/-!
# Trees of plain values

Settings of producers and the configuration file are trees of scalars, lists and objects. The
fields of an object are kept in the order of their names, each name once, so that equal settings
are equal trees.
-/

namespace ListMode

/-- A plain value. Whole numbers and floating-point numbers are different things. -/
inductive Tree where
  | null
  | bool (b : Bool)
  | int (n : Int)
  | float (x : Float)
  | str (s : String)
  | arr (items : List Tree)
  | obj (fields : List (String × Tree))
  deriving Inhabited

namespace Tree

def field? (name : String) (fields : List (String × Tree)) : Option Tree :=
  KeyMap.lookup name fields

/-- Set a field, in the place of one with the same name. -/
def setField (name : String) (value : Tree) (fields : List (String × Tree)) :
    List (String × Tree) :=
  KeyMap.alterEntries name (fun _ => value) fields

/-- The object with the given fields; of fields with one name the last counts. -/
def object (fields : List (String × Tree)) : Tree :=
  .obj (fields.foldl (fun acc e => setField e.1 e.2 acc) [])

def ofOption (f : α → Tree) : Option α → Tree
  | none => .null
  | some a => f a

/-- Name of the only field of an object that stands for a date or a time. -/
def dateField : String := "$__toml_private_datetime"

/-- A date or a time, as its text. -/
def date (text : String) : Tree := .obj [(dateField, .str text)]

/-- The text of a date or a time. -/
def dateText? : Tree → Option String
  | .obj [(name, .str text)] => if name = dateField then some text else none
  | _ => none

/-! ## Laying one tree over another -/

mutual

/-- `base` with `top` laid over it: objects are joined field by field, and everything else is
replaced. -/
def overlay (base : Tree) : Tree → Tree
  | .obj fields =>
    match base with
    | .obj under => .obj (overlayFields under fields)
    | _ => .obj (overlayFields [] fields)
  | top => top

def overlayFields (under : List (String × Tree)) : List (String × Tree) → List (String × Tree)
  | [] => under
  | (name, value) :: rest =>
    overlayFields
      (KeyMap.alterEntries name
        (fun old => match old with
          | some base => overlay base value
          | none => value)
        under)
      rest

end

end Tree

end ListMode
