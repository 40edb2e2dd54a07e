import ListMode.Text.Blank
import ListMode.Text.Digits

/-!
# Blanks, strings and keys of configuration text

The lexical parts of TOML 1.0: blanks, comments and line ends, the four kinds of strings, and keys.
Each reader takes what it reads off the front of the text and gives the rest.
-/

namespace ListMode.Tree.Toml

def isBlank (c : Char) : Bool := c = ' ' || c = '\t'

def skipBlanks (s : List Char) : List Char := s.dropWhile isBlank

/-- Characters of comments and strings: everything but control characters; the tabulator counts as
none. -/
def isPlain (c : Char) : Bool := c = '\t' || (32 ≤ c.toNat && c.toNat ≠ 127)

/-- A line feed, with or without a carriage return before it. -/
def readLineEnd? : List Char → Option (List Char)
  | '\n' :: s => some s
  | '\r' :: '\n' :: s => some s
  | _ => none

/-- Drop a comment if the text begins with one. -/
def skipComment : List Char → List Char
  | '#' :: s => s.dropWhile isPlain
  | s => s

/-- Drop what may follow a statement on its line: blanks, a comment and the line end. `none` if
there is anything else. -/
def readRestOfLine? (s : List Char) : Option (List Char) :=
  match skipComment (skipBlanks s) with
  | [] => some []
  | s => readLineEnd? s

/-- Drop blanks, comments and line ends, as often as there are any. -/
def skipSpace : (fuel : Nat) → List Char → List Char
  | 0, s => s
  | fuel + 1, s =>
    let s := skipComment (skipBlanks s)
    match readLineEnd? s with
    | some s => skipSpace fuel s
    | none => s

/-! ## Strings -/

/-- The character with a code of `width` hexadecimal digits. -/
def readCode? (width : Nat) (s : List Char) : Option (Char × List Char) :=
  let digits := s.take width
  if digits.length = width then
    (Text.readNat? 16 digits).bind fun n =>
      if n.isValidChar then some (Char.ofNat n, s.drop width) else none
  else none

/-- The character that an escape sequence stands for; the backslash has been taken off. -/
def readEscape? : List Char → Option (Char × List Char)
  | 'b' :: s => some (Char.ofNat 8, s)
  | 't' :: s => some (Char.ofNat 9, s)
  | 'n' :: s => some (Char.ofNat 10, s)
  | 'f' :: s => some (Char.ofNat 12, s)
  | 'r' :: s => some (Char.ofNat 13, s)
  | '"' :: s => some ('"', s)
  | '\\' :: s => some ('\\', s)
  | 'u' :: s => readCode? 4 s
  | 'U' :: s => readCode? 8 s
  | _ => none

/-- A string in double quotes; the opening quote has been taken off. -/
def readBasic? : (fuel : Nat) → List Char → Option (List Char × List Char)
  | 0, _ => none
  | fuel + 1, s =>
    match s with
    | '"' :: s => some ([], s)
    | '\\' :: s => do
      let (c, s) ← readEscape? s
      let (cs, s) ← readBasic? fuel s
      return (c :: cs, s)
    | c :: s =>
      if isPlain c then (readBasic? fuel s).map fun (cs, s) => (c :: cs, s) else none
    | [] => none

/-- A string in single quotes; the opening quote has been taken off. -/
def readLiteral? : List Char → Option (List Char × List Char)
  | [] => none
  | '\'' :: s => some ([], s)
  | c :: s => if isPlain c then (readLiteral? s).map fun (cs, s) => (c :: cs, s) else none

/-- The end of a string over several lines: three quotes, before which up to two more belong to the
string. `none` if fewer than three quotes follow. -/
def readClosing? (quote : Char) (s : List Char) : Option (List Char × List Char) :=
  let run := s.takeWhile (· = quote)
  if run.length < 3 then none
  else
    let extra := min (run.length - 3) 2
    some (List.replicate extra quote, s.drop (extra + 3))

/-- A line end that has been escaped, with all blanks and line ends that follow it. -/
def skipJoin? (fuel : Nat) (s : List Char) : Option (List Char) :=
  let rec skip : (fuel : Nat) → List Char → List Char
    | 0, s => s
    | fuel + 1, s =>
      match readLineEnd? (skipBlanks s) with
      | some s => skip fuel s
      | none => skipBlanks s
  (readLineEnd? (skipBlanks s)).map (skip fuel)

/-- A string over several lines; the opening quotes have been taken off. Escape sequences are read in
double quotes only, and every line end counts as a line feed. -/
def readLines? (quote : Char) : (fuel : Nat) → List Char → Option (List Char × List Char)
  | 0, _ => none
  | fuel + 1, s =>
    match readClosing? quote s with
    | some found => some found
    | none =>
      match s with
      | [] => none
      | c :: rest =>
        if c = '\\' && quote = '"' then
          match skipJoin? fuel rest with
          | some rest => readLines? quote fuel rest
          | none => do
            let (c, rest) ← readEscape? rest
            let (cs, rest) ← readLines? quote fuel rest
            return (c :: cs, rest)
        else
          match readLineEnd? s with
          | some rest => (readLines? quote fuel rest).map fun (cs, s) => ('\n' :: cs, s)
          | none =>
            if isPlain c then (readLines? quote fuel rest).map fun (cs, s) => (c :: cs, s)
            else none

/-- A string over several lines from behind its opening quotes; a line end there does not count. -/
def readBlock? (quote : Char) (s : List Char) : Option (List Char × List Char) :=
  readLines? quote (s.length + 1) ((readLineEnd? s).getD s)

def readString? : List Char → Option (List Char × List Char)
  | '"' :: '"' :: '"' :: s => readBlock? '"' s
  | '"' :: s => readBasic? (s.length + 1) s
  | '\'' :: '\'' :: '\'' :: s => readBlock? '\'' s
  | '\'' :: s => readLiteral? s
  | _ => none

/-! ## Keys -/

def isBare (c : Char) : Bool :=
  let n := c.toNat
  (48 ≤ n && n ≤ 57) || (65 ≤ n && n ≤ 90) || (97 ≤ n && n ≤ 122) || c = '_' || c = '-'

/-- One part of a key: bare, or a string on one line. -/
def readSimpleKey? : List Char → Option (String × List Char)
  | '"' :: s => (readBasic? (s.length + 1) s).map fun (cs, s) => (String.ofList cs, s)
  | '\'' :: s => (readLiteral? s).map fun (cs, s) => (String.ofList cs, s)
  | s =>
    let bare := s.takeWhile isBare
    if bare.isEmpty then none else some (String.ofList bare, s.drop bare.length)

/-- Nested lists, inline tables and the parts of a key are fewer than this. -/
def depthLimit : Nat := 80

/-- A key of one or more parts joined by points, with blanks around them. -/
def readKeyUpTo? : (fuel : Nat) → List Char → Option (List String × List Char)
  | 0, _ => none
  | fuel + 1, s => do
    let (part, s) ← readSimpleKey? (skipBlanks s)
    match skipBlanks s with
    | '.' :: s =>
      let (parts, s) ← readKeyUpTo? fuel s
      return (part :: parts, s)
    | s => return ([part], s)

def readKey? (s : List Char) : Option (List String × List Char) := readKeyUpTo? (depthLimit - 1) s

end ListMode.Tree.Toml
