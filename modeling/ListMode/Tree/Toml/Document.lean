import ListMode.Tree.Toml.Scalar
import ListMode.Tree.Toml.Table

/-!
# Configuration text

The reader of TOML 1.0. A text is a sequence of lines: headers, which say which table is meant from
there on, and assignments into it. Values are scalars, strings, lists and inline tables.
-/

namespace ListMode.Tree.Toml

/-! ## Values -/

mutual

/-- One value and what follows it, inside `depth` lists and inline tables. -/
def readValue? : (fuel : Nat) → (depth : Nat) → List Char → Option (Tree × List Char)
  | 0, _, _ => none
  | fuel + 1, depth, s =>
    match s with
    | '[' :: s =>
      if depth + 1 < depthLimit then
        (readItems? fuel (depth + 1) s).map fun (items, s) => (.arr items, s)
      else none
    | '\x7b' :: s =>
      if depth + 1 < depthLimit then
        match skipBlanks s with
        | '\x7d' :: s => some (.obj [], s)
        | s => (readPairs? fuel (depth + 1) .root s).map fun (t, s) => (t.toTree, s)
      else none
    | '"' :: _ | '\'' :: _ => (readString? s).map fun (cs, s) => (.str (String.ofList cs), s)
    | s => readScalar? s

/-- The items of a list up to its closing bracket. -/
def readItems? : (fuel : Nat) → (depth : Nat) → List Char → Option (List Tree × List Char)
  | 0, _, _ => none
  | fuel + 1, depth, s =>
    match skipSpace (s.length + 1) s with
    | ']' :: s => some ([], s)
    | s => do
      let (item, s) ← readValue? fuel depth s
      match skipSpace (s.length + 1) s with
      | ',' :: s =>
        let (items, s) ← readItems? fuel depth s
        return (item :: items, s)
      | ']' :: s => return ([item], s)
      | _ => none

/-- The fields of a non-empty inline table up to its closing brace, joined to those read before. -/
def readPairs? : (fuel : Nat) → (depth : Nat) → Table → List Char → Option (Table × List Char)
  | 0, _, _, _ => none
  | fuel + 1, depth, before, s => do
    let (key, s) ← readKey? s
    match s with
    | '=' :: s =>
      let (value, s) ← readValue? fuel depth (skipBlanks s)
      let t ← before.assign? key value
      match skipBlanks s with
      | ',' :: s => readPairs? fuel depth t s
      | '\x7d' :: s => return (t, s)
      | _ => none
    | _ => none

end

/-! ## Lines -/

/-- What has been read: all tables, and the key of the one that is meant. -/
structure Progress where
  tables : Table
  header : List String

/-- Assign a value in the table that is meant. -/
def Progress.assign? (p : Progress) (key : List String) (value : Tree) : Option Progress := do
  let tables ← p.tables.within false p.header (·.assign? key value)
  return { p with tables }

/-- A header; its opening bracket has been taken off. -/
def readHeader? (p : Progress) : List Char → Option (Progress × List Char)
  | '[' :: s => do
    let (key, s) ← readKey? s
    let s ← Text.strip? [']', ']'] s
    return (⟨← p.tables.appendTable? key, key⟩, s)
  | s => do
    let (key, s) ← readKey? s
    let s ← Text.strip? [']'] s
    return (⟨← p.tables.openTable? key, key⟩, s)

/-- An assignment. Every call of the value readers takes a character off, so twice the length is
fuel enough. -/
def readAssignment? (p : Progress) (s : List Char) : Option (Progress × List Char) := do
  let (key, s) ← readKey? s
  let s ← Text.strip? ['='] s
  let s := skipBlanks s
  let (value, s) ← readValue? (2 * s.length + 1) 0 s
  return (← p.assign? key value, s)

def readStatements? : (fuel : Nat) → Progress → List Char → Option Progress
  | 0, _, _ => none
  | fuel + 1, p, s =>
    match skipSpace (s.length + 1) s with
    | [] => some p
    | '[' :: s => do
      let (p, s) ← readHeader? p s
      readStatements? fuel p (← readRestOfLine? s)
    | s => do
      let (p, s) ← readAssignment? p s
      readStatements? fuel p (← readRestOfLine? s)

/-- Read a configuration text. A byte order mark in front does not count. -/
def read? (text : String) : Option Tree := do
  let s := text.toList
  let s := match s with
    | '\uFEFF' :: rest => rest
    | _ => s
  let p ← readStatements? (s.length + 1) ⟨.root, []⟩ s
  return p.tables.toTree

end ListMode.Tree.Toml
