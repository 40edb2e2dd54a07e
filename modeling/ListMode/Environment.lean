import ListMode.Tree.Toml.Scalar

/-!
# Settings from the environment

Variables of the environment override fields of a configuration. The name of such a variable says
which field is meant, and its value is read as a truth value, a number, a quoted text, a list or an
object where it has that form, and as plain text otherwise.
-/

namespace ListMode.Environment

/-- A variable of the environment: its name and its value. -/
abbrev Variable := String × String

/-! ## Names -/

/-- How the names of the variables begin, in any letter case. -/
def marker : List Char := "spectro_daq_".toList

/-- Two underscores stand for a point. -/
def pointed : List Char → List Char
  | '_' :: '_' :: rest => '.' :: pointed rest
  | c :: rest => c :: pointed rest
  | [] => []

/-- The path to the field that a variable means, if it means one. No part of it may be empty. -/
def path? (name : String) : Option (List String) := do
  let name := (Text.trim name.toList).map Char.toLower
  let parts := Text.splitAt '.' (Text.trim (pointed (← Text.strip? marker name)))
  if parts.any List.isEmpty then none else return parts.map String.ofList

/-! ## Numbers -/

def spanDigits (s : List Char) : List Char × List Char :=
  (s.takeWhile Text.isDigit, s.dropWhile Text.isDigit)

/-- The exponent of a number, or zero where the text has ended. -/
def readExponent? : List Char → Option Int
  | [] => some 0
  | c :: s => if c = 'e' || c = 'E' then Text.readInt? s else none

/-- A floating-point number with a point. Digits may be missing on one side of it. -/
def readFloat? (s : List Char) : Option Float := do
  let (negative, s) := Tree.Toml.splitSign s
  let (whole, s) := spanDigits s
  let s ← Text.strip? ['.'] s
  let (fraction, s) := spanDigits s
  let digits ← Text.readNat? 10 (whole ++ fraction)
  return Decimal.toFloat negative digits ((← readExponent? s) - fraction.length)

/-- A whole number of 64 bits, with or without sign. -/
def readInt? (s : List Char) : Option Int :=
  (Text.readInt? s).filter fun n => -0x8000000000000000 ≤ n && n < 0x10000000000000000

def ofWord (w : List Char) : Tree :=
  match readFloat? w with
  | some x => .float x
  | none =>
    match readInt? w with
    | some n => .int n
    | none => .str (String.ofList w)

/-! ## Values -/

def isSpace (c : Char) : Bool := c = ' ' || c = '\t' || c = '\n' || c = '\r' || c.toNat = 12

def isSeparator (c : Char) : Bool := c = ',' || c = '{' || c = '}' || c = '[' || c = ']'

/-- The name of a field: bare, or in double quotes. -/
def readName? : List Char → Option (String × List Char)
  | '"' :: s => (Tree.Toml.readBasic? (s.length + 1) s).map fun (cs, s) => (String.ofList cs, s)
  | s =>
    let bare := s.takeWhile Tree.Toml.isBare
    if bare.isEmpty then none else some (String.ofList bare, s.drop bare.length)

/-- A value that is no list and no object. -/
def readPlain? (s : List Char) : Option (Tree × List Char) :=
  match Text.strip? "true".toList s, Text.strip? "false".toList s with
  | some rest, _ => some (.bool true, rest)
  | none, some rest => some (.bool false, rest)
  | none, none =>
    match s with
    | '"' :: s =>
      (Tree.Toml.readBasic? (s.length + 1) s).map fun (cs, s) => (.str (String.ofList cs), s)
    | '\'' :: c :: '\'' :: s => some (.str (String.ofList [c]), s)
    | '\'' :: _ => none
    | s =>
      let word := s.takeWhile (!isSeparator ·)
      some (ofWord (Text.trim word), s.drop word.length)

mutual

/-- One value and what follows it, blanks around it taken off. -/
def readValue? : (fuel : Nat) → List Char → Option (Tree × List Char)
  | 0, _ => none
  | fuel + 1, s => do
    let (t, s) ← match s.dropWhile isSpace with
      | '{' :: s => (readFields? fuel [] s).map fun (fields, s) => (.obj fields, s)
      | '[' :: s => (readItems? fuel s).map fun (items, s) => (.arr items, s)
      | s => readPlain? s
    return (t, s.dropWhile isSpace)

/-- The items of a list up to its closing bracket. -/
def readItems? : (fuel : Nat) → List Char → Option (List Tree × List Char)
  | 0, _ => none
  | fuel + 1, s =>
    match s with
    | ']' :: s => some ([], s)
    | s => do
      let (item, s) ← readValue? fuel s
      match s with
      | ',' :: s =>
        let (items, s) ← readItems? fuel s
        return (item :: items, s)
      | ']' :: s => return ([item], s)
      | _ => none

/-- The fields of an object up to its closing brace, joined to those read before. -/
def readFields? : (fuel : Nat) → List (String × Tree) → List Char →
    Option (List (String × Tree) × List Char)
  | 0, _, _ => none
  | fuel + 1, before, s =>
    match s with
    | '}' :: s => some (before, s)
    | s => do
      let (name, s) ← readName? (s.dropWhile isSpace)
      match s.dropWhile isSpace with
      | '=' :: s =>
        let (value, s) ← readValue? fuel s
        let fields := Tree.setField name value before
        match s with
        | ',' :: s => readFields? fuel fields s
        | '}' :: s => return (fields, s)
        | _ => none
      | _ => none

end

/-- What the value of a variable stands for. At least every second call takes a character off, so that
the fuel lasts. -/
def value (text : String) : Tree :=
  let s := Text.trim text.toList
  match readValue? (3 * s.length + 3) s with
  | some (t, []) => t
  | _ => .str (String.ofList s)

/-! ## Overriding -/

/-- The value as the only field at the end of a path. -/
def nest (path : List String) (t : Tree) : Tree :=
  path.foldr (fun name t => .obj [(name, t)]) t

/-- All that the variables say. Later ones override earlier ones. -/
def tree (given : List Variable) : Tree :=
  given.foldl (fun t (name, text) =>
    match path? name with
    | some path => t.overlay (nest path (value text))
    | none => t) (.obj [])

end ListMode.Environment
