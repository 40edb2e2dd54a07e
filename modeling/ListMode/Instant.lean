import ListMode.Text.Blank
import ListMode.Text.Digits

/-!
# Instants and their written form

An instant counts seconds since 1970-01-01 UTC in the proleptic Gregorian calendar. Inside a leap
second the nanoseconds run on past one thousand million while the seconds stand still.

Instants are written as RFC 3339 prescribes, always in UTC, with no fraction or one of three, six
or nine digits. The reader also takes other offsets, blanks between the parts, short numerals, and
a year with sign.
-/

namespace ListMode

/-- A point of time. `nanos` is below 1000000000 except inside a leap second. -/
structure Instant where
  seconds : Int
  nanos : Nat
  deriving DecidableEq, Repr, Inhabited

namespace Instant

def ofMillis (ms : Int) : Instant := ⟨ms.fdiv 1000, (ms.fmod 1000).toNat * 1000000⟩

/-- Whole milliseconds since the epoch, rounded down. -/
def toMillis (t : Instant) : Int := t.seconds * 1000 + (t.nanos / 1000000 : Nat)

/-! ## Calendar -/

/-- Days from 1970-01-01 to a date. Months before March count with the year before. -/
def daysOfDate (year : Int) (month day : Nat) : Int :=
  let y := if month ≤ 2 then year - 1 else year
  let era := y.fdiv 400
  let yearOfEra := y - era * 400
  let dayOfYear : Int := (153 * ((month + 9) % 12) + 2) / 5 + day - 1
  let dayOfEra := yearOfEra * 365 + yearOfEra / 4 - yearOfEra / 100 + dayOfYear
  era * 146097 + dayOfEra - 719468

/-- Year, month and day of the date `days` days after 1970-01-01. -/
def dateOfDays (days : Int) : Int × Nat × Nat :=
  let z := days + 719468
  let era := z.fdiv 146097
  let dayOfEra := (z - era * 146097).toNat
  let yearOfEra := (dayOfEra - dayOfEra / 1460 + dayOfEra / 36524 - dayOfEra / 146096) / 365
  let dayOfYear := dayOfEra - (365 * yearOfEra + yearOfEra / 4 - yearOfEra / 100)
  let monthFromMarch := (5 * dayOfYear + 2) / 153
  let day := dayOfYear - (153 * monthFromMarch + 2) / 5 + 1
  let month := if monthFromMarch < 10 then monthFromMarch + 3 else monthFromMarch - 9
  let year := (yearOfEra : Int) + era * 400
  (if month ≤ 2 then year + 1 else year, month, day)

def isLeapYear (year : Int) : Bool :=
  year % 4 == 0 && (year % 100 != 0 || year % 400 == 0)

def daysInMonth (year : Int) (month : Nat) : Nat :=
  if month = 2 then (if isLeapYear year then 29 else 28)
  else if month = 4 ∨ month = 6 ∨ month = 9 ∨ month = 11 then 30
  else 31

/-- First and last year of the calendar. -/
def minYear : Int := -262143
def maxYear : Int := 262142

/-- Whether the date of `seconds` lies within the calendar. -/
def inRange (seconds : Int) : Bool :=
  decide (daysOfDate minYear 1 1 * 86400 ≤ seconds) &&
    decide (seconds < (daysOfDate maxYear 12 31 + 1) * 86400)

/-! ## Writing -/

/-- The year in four digits; with sign when it needs more or is negative. -/
def yearText (year : Int) : String :=
  if 0 ≤ year ∧ year ≤ 9999 then Text.numeral 10 4 year.toNat
  else (if year < 0 then "-" else "+") ++ Text.numeral 10 4 year.natAbs

/-- The fraction of a second, in as few groups of three digits as hold it. -/
def fractionText (nanos : Nat) : String :=
  if nanos = 0 then ""
  else if nanos % 1000000 = 0 then "." ++ Text.numeral 10 3 (nanos / 1000000)
  else if nanos % 1000 = 0 then "." ++ Text.numeral 10 6 (nanos / 1000)
  else "." ++ Text.numeral 10 9 nanos

def text (t : Instant) : String :=
  let days := t.seconds.fdiv 86400
  let inDay := (t.seconds - days * 86400).toNat
  let (year, month, day) := dateOfDays days
  let leap := t.nanos / 1000000000
  yearText year ++ "-" ++ Text.numeral 10 2 month ++ "-" ++ Text.numeral 10 2 day ++ "T" ++
    Text.numeral 10 2 (inDay / 3600) ++ ":" ++ Text.numeral 10 2 (inDay / 60 % 60) ++ ":" ++
    Text.numeral 10 2 (inDay % 60 + leap) ++ fractionText (t.nanos % 1000000000) ++ "Z"

/-! ## Reading -/

/-- A numeral of one to `width` digits after optional blanks, and the rest. -/
def readNumber? (width : Nat) (s : List Char) : Option (Nat × List Char) :=
  let s := Text.trimStart s
  let ds := (s.take width).takeWhile Text.isDigit
  (Text.readNat? 10 ds).map fun n => (n, s.drop ds.length)

/-- A year: up to four digits, or any number of them after a sign. -/
def readYear? (s : List Char) : Option (Int × List Char) :=
  match Text.trimStart s with
  | '-' :: s => if (s.head?.any Text.isDigit) then
      (readNumber? s.length s).map fun (n, rest) => (-(n : Int), rest) else none
  | '+' :: s => if (s.head?.any Text.isDigit) then
      (readNumber? s.length s).map fun (n, rest) => ((n : Int), rest) else none
  | s => (readNumber? 4 s).map fun (n, rest) => ((n : Int), rest)

/-- A separator after optional blanks. -/
def readMark? (mark : Char) (s : List Char) : Option (List Char) :=
  Text.strip? [mark] (Text.trimStart s)

/-- A fraction of a second in nanoseconds; digits after the ninth are dropped. -/
def readFraction? : List Char → Option (Nat × List Char)
  | '.' :: s =>
    let ds := s.takeWhile Text.isDigit
    let kept := ds.take 9
    (Text.readNat? 10 kept).map fun n => (n * Nat.pow 10 (9 - kept.length), s.drop ds.length)
  | s => some (0, s)

/-- An offset from UTC in seconds: `Z`, `UTC`, or sign, hours and minutes. -/
def readOffset? (s : List Char) : Option (Int × List Char) :=
  let signed (sign : Int) (s : List Char) : Option (Int × List Char) := do
    let hours ← Text.readNat? 10 (s.take 2)
    guard (2 ≤ s.length)
    let s := (s.drop 2).dropWhile fun c => c = ':' || Text.isBlank c
    let minutes ← Text.readNat? 10 (s.take 2)
    guard (2 ≤ s.length ∧ minutes < 60 ∧ hours < 24)
    return (sign * (hours * 3600 + minutes * 60 : Nat), s.drop 2)
  match s with
  | 'Z' :: s | 'z' :: s => some (0, s)
  | '+' :: s => signed 1 s
  | '-' :: s | '\u2212' :: s => signed (-1) s
  | a :: b :: c :: s =>
    if [a, b, c].map Char.toUpper = ['U', 'T', 'C'] then some (0, s) else none
  | _ => none

/-- Read an instant. The date must exist and the offset must be given. -/
def read? (s : String) : Option Instant := do
  let (year, s) ← readYear? s.toList
  let s ← readMark? '-' s
  let (month, s) ← readNumber? 2 s
  let s ← readMark? '-' s
  let (day, s) ← readNumber? 2 s
  let c ← s.head?
  guard (c = 'T' ∨ c = 't' ∨ c = ' ')
  let (hour, s) ← readNumber? 2 s.tail
  let s ← readMark? ':' s
  let (minute, s) ← readNumber? 2 s
  let s ← readMark? ':' s
  let (second, s) ← readNumber? 2 s
  let (nanos, s) ← readFraction? s
  let (offset, s) ← readOffset? (Text.trimStart s)
  guard ((Text.trimStart s).isEmpty)
  guard (minYear ≤ year ∧ year ≤ maxYear ∧ 1 ≤ month ∧ month ≤ 12)
  guard (1 ≤ day ∧ day ≤ daysInMonth year month ∧ hour ≤ 23 ∧ minute ≤ 59 ∧ second ≤ 60)
  let leap := if second = 60 then 1 else 0
  let seconds := daysOfDate year month day * 86400 +
    (hour * 3600 + minute * 60 + (second - leap) : Nat) - offset
  guard (inRange seconds)
  return ⟨seconds, nanos + leap * 1000000000⟩

end Instant

end ListMode
