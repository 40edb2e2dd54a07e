import ListMode.Decimal.Nearest
import ListMode.Instant
import ListMode.Tree
import ListMode.Tree.Toml.Text

/-!
# Numbers, truth values and dates of configuration text

A scalar that is no string is a word, and the word as a whole decides what it is. Whole numbers are
those of 64 bits with sign. A date may be joined to a time by a blank, which is the only case of a
scalar of two words.
-/

namespace ListMode.Tree.Toml

/-! ## Numbers -/

/-- The digits of `base` of a numeral in which an underscore may stand between two digits. -/
def readDigits? (base : Nat) : List Char → Option (List Char)
  | [] => none
  | [c] => (Text.digitIn? base c).map fun _ => [c]
  | c :: '_' :: rest => do
    let _ ← Text.digitIn? base c
    return c :: (← readDigits? base rest)
  | c :: rest => do
    let _ ← Text.digitIn? base c
    return c :: (← readDigits? base rest)

/-- Take a sign off. `true` for a minus. -/
def splitSign : List Char → Bool × List Char
  | '-' :: s => (true, s)
  | '+' :: s => (false, s)
  | s => (false, s)

/-- Decimal digits without needless zeros in front. -/
def readWhole? (s : List Char) : Option (List Char) := do
  let digits ← readDigits? 10 s
  if digits.length > 1 && digits.head? = some '0' then none else return digits

/-- A whole number, if 64 bits with sign hold it. -/
def inRange? (n : Int) : Option Tree :=
  if -0x8000000000000000 ≤ n ∧ n < 0x8000000000000000 then some (.int n) else none

/-- A numeral in a base that its first two characters name. -/
def readBased? (base : Nat) (s : List Char) : Option Tree := do
  let digits ← readDigits? base s
  inRange? (← Text.readNat? base digits)

def readInt? (s : List Char) : Option Tree :=
  match s with
  | '0' :: 'x' :: s => readBased? 16 s
  | '0' :: 'o' :: s => readBased? 8 s
  | '0' :: 'b' :: s => readBased? 2 s
  | _ => do
    let (negative, s) := splitSign s
    let n ← Text.readNat? 10 (← readWhole? s)
    inRange? (if negative then -(n : Int) else n)

def isExponentMark (c : Char) : Bool := c = 'e' || c = 'E'

/-- A floating-point number with a fraction, an exponent or both. One too large for a double is
refused unless it is negative. -/
def readFloat? (s : List Char) : Option Tree := do
  let (negative, s) := splitSign s
  let mantissa := s.takeWhile (!isExponentMark ·)
  let scale := s.drop mantissa.length
  let whole := mantissa.takeWhile (· ≠ '.')
  let point := mantissa.drop whole.length
  if scale.isEmpty && point.isEmpty then none
  let digits ← readWhole? whole
  let fraction ← if point.isEmpty then some [] else readDigits? 10 (point.drop 1)
  let exponent ← if scale.isEmpty then some 0 else do
    let (down, s) := splitSign (scale.drop 1)
    let n ← Text.readNat? 10 (← readDigits? 10 s)
    some (if down then -(n : Int) else n)
  let n ← Text.readNat? 10 (digits ++ fraction)
  let x := Decimal.toFloat negative n (exponent - fraction.length)
  if x.isInf && !negative then none else return .float x

/-- Infinity or no number, with or without sign. -/
def readSpecial? (s : List Char) : Option Tree :=
  let (negative, s) := splitSign s
  let sign (x : Float) : Tree := .float (if negative then -x else x)
  if s = ['i', 'n', 'f'] then some (sign (1.0 / 0.0))
  else if s = ['n', 'a', 'n'] then some (sign (0.0 / 0.0))
  else none

/-! ## Dates and times -/

/-- A number of exactly `width` digits. -/
def readFixed? (width : Nat) (s : List Char) : Option (Nat × List Char) :=
  let digits := s.take width
  if digits.length = width then (Text.readDigits? 10 0 digits).map (·, s.drop width) else none

/-- A number of `width` digits in a range. -/
def readPart? (width lo hi : Nat) (s : List Char) : Option (Nat × List Char) := do
  let (n, s) ← readFixed? width s
  if lo ≤ n ∧ n ≤ hi then some (n, s) else none

/-- A date of the calendar, as its text. -/
def readDate? (s : List Char) : Option (String × List Char) := do
  let (year, s) ← readFixed? 4 s
  let s ← Text.strip? ['-'] s
  let (month, s) ← readPart? 2 1 12 s
  let s ← Text.strip? ['-'] s
  let (day, s) ← readPart? 2 1 (Instant.daysInMonth year month) s
  let pad := Text.numeral 10
  return (s!"{pad 4 year}-{pad 2 month}-{pad 2 day}", s)

/-- The fraction of a second, as its text: at most nine digits, without zeros at the end. -/
def fractionText (digits : List Char) : String :=
  let kept := ((digits.take 9).reverse.dropWhile (· = '0')).reverse
  if kept.isEmpty then "" else String.ofList ('.' :: kept)

/-- A time of day, as its text. -/
def readTime? (s : List Char) : Option (String × List Char) := do
  let (hour, s) ← readPart? 2 0 23 s
  let s ← Text.strip? [':'] s
  let (minute, s) ← readPart? 2 0 59 s
  let s ← Text.strip? [':'] s
  let (second, s) ← readPart? 2 0 60 s
  let (fraction, s) :=
    match s with
    | '.' :: rest =>
      let digits := rest.takeWhile Text.isDigit
      if digits.isEmpty then ("", s) else (fractionText digits, rest.drop digits.length)
    | _ => ("", s)
  let pad := Text.numeral 10 2
  return (s!"{pad hour}:{pad minute}:{pad second}{fraction}", s)

/-- An offset from UTC, as its text. -/
def readOffset? : List Char → Option (String × List Char)
  | 'Z' :: s | 'z' :: s => some ("Z", s)
  | c :: s => do
    if c ≠ '+' && c ≠ '-' then none
    let (hour, s) ← readPart? 2 0 23 s
    let s ← Text.strip? [':'] s
    let (minute, s) ← readPart? 2 0 59 s
    let pad := Text.numeral 10 2
    return (s!"{c}{pad hour}:{pad minute}", s)
  | [] => none

/-- A time with or without an offset. -/
def readClock? (s : List Char) : Option (String × List Char) := do
  let (time, s) ← readTime? s
  match readOffset? s with
  | some (offset, s) => return (time ++ offset, s)
  | none => return (time, s)

/-- A date, a time, or both. -/
def readMoment? (s : List Char) : Option (Tree × List Char) :=
  match readDate? s with
  | none => (readTime? s).map fun (time, s) => (.date time, s)
  | some (date, s) =>
    let clock? := match s with
      | c :: rest => if c = 'T' || c = 't' || c = ' ' then readClock? rest else none
      | [] => none
    match clock? with
    | some (clock, s) => some (.date (date ++ "T" ++ clock), s)
    | none => some (.date date, s)

/-! ## Words -/

def isWordChar (c : Char) : Bool :=
  let n := c.toNat
  (48 ≤ n && n ≤ 57) || (65 ≤ n && n ≤ 90) || (97 ≤ n && n ≤ 122) || c = '_' || c = '-' || c = '+' ||
    c = '.' || c = ':'

/-- What a word stands for, unless it is a date or a time. -/
def readWord? (w : List Char) : Option Tree :=
  if w = ['t', 'r', 'u', 'e'] then some (.bool true)
  else if w = ['f', 'a', 'l', 's', 'e'] then some (.bool false)
  else ((readInt? w).or (readFloat? w)).or (readSpecial? w)

/-- A scalar that is no string. -/
def readScalar? (s : List Char) : Option (Tree × List Char) :=
  match readMoment? s with
  | some found => some found
  | none =>
    let word := s.takeWhile isWordChar
    (readWord? word).map (·, s.drop word.length)

end ListMode.Tree.Toml
