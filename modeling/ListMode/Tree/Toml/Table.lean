import ListMode.Tree

/-!
# Tables under construction

While configuration text is read, a table remembers how it came about: by its own header, as part of
a longer header, or as part of a key with points. A table is defined once. A header may name a table
that longer headers have brought about, keys with points may extend tables that keys with points
have brought about, and nothing else may be extended. A list of tables grows by one table with each
of its headers, and its last table is the one that is meant by its name.
-/

namespace ListMode.Tree.Toml

/-- What a name stands for. A table is `implied` until it has a header of its own, and `dotted` if a
key with points has brought it about. -/
inductive Node where
  | leaf (value : Tree)
  | table (implied dotted : Bool) (fields : List (String × Node))
  | tables (elements : List (List (String × Node)))

/-- A table under construction. -/
structure Table where
  implied : Bool
  dotted : Bool
  fields : List (String × Node)

namespace Table

/-- The table of the whole text. -/
def root : Table := ⟨false, false, []⟩

def node (t : Table) : Node := .table t.implied t.dotted t.fields

def field? (t : Table) (name : String) : Option Node := KeyMap.lookup name t.fields

def setField (t : Table) (name : String) (n : Node) : Table :=
  { t with fields := KeyMap.alterEntries name (fun _ => n) t.fields }

/-- Change the table at `path`, bringing about tables on the way. With `dotted` the way leads through
keys with points, otherwise through a header. -/
def within (dotted : Bool) : (path : List String) → (Table → Option Table) → Table → Option Table
  | [], f, t => f t
  | name :: path, f, t =>
    match t.field? name with
    | none => do
      let inner ← within dotted path f ⟨true, dotted, []⟩
      return t.setField name inner.node
    | some (.leaf _) => none
    | some (.table implied wasDotted fields) =>
      if dotted && !implied then none
      else do
        let inner ← within dotted path f ⟨implied, wasDotted, fields⟩
        return t.setField name inner.node
    | some (.tables elements) => do
      let inner ← within dotted path f ⟨false, false, ← elements.getLast?⟩
      return t.setField name (.tables (elements.dropLast ++ [inner.fields]))

/-- Define a field that is not there yet. Keys with and without points cannot share a table. -/
def define? (t : Table) (path : List String) (name : String) (value : Tree) : Option Table :=
  t.within true path fun inner =>
    if inner.dotted == path.isEmpty then none
    else
      match inner.field? name with
      | some _ => none
      | none => some (inner.setField name (.leaf value))

/-- Define the field that a key names. -/
def assign? (t : Table) (key : List String) (value : Tree) : Option Table := do
  t.define? key.dropLast (← key.getLast?) value

/-- Open the table that a header names. -/
def openTable? (t : Table) (key : List String) : Option Table := do
  let name ← key.getLast?
  t.within false key.dropLast fun parent =>
    match parent.field? name with
    | none => some (parent.setField name (.table false false []))
    | some (.table true false fields) => some (parent.setField name (.table false false fields))
    | some _ => none

/-- Append a table to the list that a header names. -/
def appendTable? (t : Table) (key : List String) : Option Table := do
  let name ← key.getLast?
  t.within false key.dropLast fun parent =>
    match parent.field? name with
    | none => some (parent.setField name (.tables [[]]))
    | some (.tables elements) => some (parent.setField name (.tables (elements ++ [[]])))
    | some _ => none

end Table

/-! ## Finished tables -/

mutual

def Node.toTree : Node → Tree
  | .leaf value => value
  | .table _ _ fields => .obj (fieldsToTree fields)
  | .tables elements => .arr (elementsToTree elements)

def fieldsToTree : List (String × Node) → List (String × Tree)
  | [] => []
  | (name, n) :: rest => (name, n.toTree) :: fieldsToTree rest

def elementsToTree : List (List (String × Node)) → List Tree
  | [] => []
  | fields :: rest => .obj (fieldsToTree fields) :: elementsToTree rest

end

def Table.toTree (t : Table) : Tree := .obj (fieldsToTree t.fields)

end ListMode.Tree.Toml
