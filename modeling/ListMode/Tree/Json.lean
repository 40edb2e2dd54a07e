import ListMode.Decimal.Nearest
import ListMode.Text.Blank
import ListMode.Text.Digits
import ListMode.Tree

/-!
# Reading JSON

The reader of RFC 8259 text. A number without point and exponent that fits in 64 bits is a whole
number; every other one is a double, computed from at most 64 bits of significand by one
multiplication or division by a power of ten, so that its last bit may differ from the nearest
double. A number beyond the largest double is refused, and of fields with one name the last counts.
-/

namespace ListMode.Tree.Json

def isSpace (c : Char) : Bool := c = ' ' || c = '\n' || c = '\t' || c = '\r'

/-! ## Numbers -/

/-- Significands are kept below this bound. -/
def bound : Nat := 0x10000000000000000

/-- Append digits to a significand until the next would pass the bound. Gives the significand, the
number of digits taken, and what follows. -/
def takeDigits (significand taken : Nat) : List Char → Nat × Nat × List Char
  | [] => (significand, taken, [])
  | c :: rest =>
    match Text.digitIn? 10 c with
    | some d =>
      if significand * 10 + d < bound then takeDigits (significand * 10 + d) (taken + 1) rest
      else (significand, taken, c :: rest)
    | none => (significand, taken, c :: rest)

/-- The double `significand · 10 ^ exponent`. Powers beyond the largest are divided out step by
step; `none` if the result is infinite. -/
def scale? : (fuel : Nat) → (x : Float) → (exponent : Int) → Option Float
  | 0, x, _ => some x
  | fuel + 1, x, exponent =>
    if exponent.natAbs ≤ 308 then
      let power := Decimal.toFloat false 1 exponent.natAbs
      if 0 ≤ exponent then
        let y := x * power
        if y.isInf then none else some y
      else some (x / power)
    else if x == 0.0 then some x
    else if 0 ≤ exponent then none
    else scale? fuel (x / Decimal.toFloat false 1 308) (exponent + 308)

/-- The signed double of a significand and a decimal exponent. After a few divisions by the largest
power nothing is left, so the fuel is never used up. -/
def double? (negative : Bool) (significand : Nat) (exponent : Int) : Option Float :=
  (scale? 10 (UInt64.ofNat significand).toFloat exponent).map fun x => if negative then -x else x

/-- The exponent part, if the text goes on with one, and the number it completes. -/
def readExponent? (negative : Bool) (significand : Nat) (exponent : Int) :
    List Char → Option (Tree × List Char)
  | 'e' :: s | 'E' :: s =>
    let (down, s) :=
      match s with
      | '+' :: s => (false, s)
      | '-' :: s => (true, s)
      | s => (false, s)
    let ds := s.takeWhile Text.isDigit
    let rest := s.drop ds.length
    match Text.readNat? 10 ds with
    | none => none
    | some n =>
      if n < 0x80000000 then
        (double? negative significand (if down then exponent - n else exponent + n)).map
          fun x => (.float x, rest)
      else if significand = 0 ∨ down then some (.float (if negative then -0.0 else 0.0), rest)
      else none
  | s => (double? negative significand exponent).map fun x => (.float x, s)

/-- The part of a number after its point. -/
def readFraction? (negative : Bool) (significand : Nat) (exponent : Int) (s : List Char) :
    Option (Tree × List Char) :=
  let (significand', taken, rest) := takeDigits significand 0 s
  let surplus := rest.takeWhile Text.isDigit
  if taken = 0 ∧ surplus.isEmpty then none
  else readExponent? negative significand' (exponent - taken) (rest.drop surplus.length)

/-- What follows the digits of a whole part. -/
def readTail? (negative : Bool) (significand : Nat) (s : List Char) :
    Option (Tree × List Char) :=
  match s with
  | '.' :: s => readFraction? negative significand 0 s
  | 'e' :: _ | 'E' :: _ => readExponent? negative significand 0 s
  | s =>
    if negative then
      if significand = 0 then some (.float (-0.0), s)
      else if significand ≤ 0x8000000000000000 then some (.int (-(significand : Int)), s)
      else some (.float (-(UInt64.ofNat significand).toFloat), s)
    else some (.int significand, s)

/-- A number after its sign. A whole part of more than 64 bits is cut off and its remaining digits
are counted. -/
def readMagnitude? (negative : Bool) : List Char → Option (Tree × List Char)
  | '0' :: s => if s.head?.any Text.isDigit then none else readTail? negative 0 s
  | s =>
    let (significand, taken, rest) := takeDigits 0 0 s
    if taken = 0 then none
    else
      let surplus := rest.takeWhile Text.isDigit
      if surplus.isEmpty then readTail? negative significand rest
      else
        match rest.drop surplus.length with
        | '.' :: s => readFraction? negative significand surplus.length s
        | s => readExponent? negative significand surplus.length s

/-! ## Strings -/

/-- The value of four hexadecimal digits. -/
def readUnit? (a b c d : Char) : Option Nat := Text.readNat? 16 [a, b, c, d]

/-- Prepend a code point that is no surrogate. -/
def consCode? (n : Nat) (rest : Option (List Char × List Char)) :
    Option (List Char × List Char) :=
  if n.isValidChar then rest.map fun (cs, s) => (Char.ofNat n :: cs, s) else none

/-- The characters up to the closing quote, and what follows it. -/
def readString? : List Char → Option (List Char × List Char)
  | [] => none
  | '"' :: s => some ([], s)
  | '\\' :: '"' :: s => consCode? 34 (readString? s)
  | '\\' :: '\\' :: s => consCode? 92 (readString? s)
  | '\\' :: '/' :: s => consCode? 47 (readString? s)
  | '\\' :: 'b' :: s => consCode? 8 (readString? s)
  | '\\' :: 'f' :: s => consCode? 12 (readString? s)
  | '\\' :: 'n' :: s => consCode? 10 (readString? s)
  | '\\' :: 'r' :: s => consCode? 13 (readString? s)
  | '\\' :: 't' :: s => consCode? 9 (readString? s)
  | '\\' :: 'u' :: a :: b :: c :: d :: s => do
    let high ← readUnit? a b c d
    if 0xD800 ≤ high ∧ high < 0xDC00 then
      match s with
      | '\\' :: 'u' :: e :: f :: g :: h :: s => do
        let low ← readUnit? e f g h
        guard (0xDC00 ≤ low ∧ low < 0xE000)
        consCode? (0x10000 + (high - 0xD800) * 0x400 + (low - 0xDC00)) (readString? s)
      | _ => none
    else consCode? high (readString? s)
  | '\\' :: _ => none
  | c :: s => if c.toNat < 32 then none else (readString? s).map fun (cs, s) => (c :: cs, s)

/-! ## Values -/

mutual

def readValue? : (fuel : Nat) → List Char → Option (Tree × List Char)
  | 0, _ => none
  | fuel + 1, s =>
    match s.dropWhile isSpace with
    | 'n' :: s => (Text.strip? ['u', 'l', 'l'] s).map (.null, ·)
    | 't' :: s => (Text.strip? ['r', 'u', 'e'] s).map (.bool true, ·)
    | 'f' :: s => (Text.strip? ['a', 'l', 's', 'e'] s).map (.bool false, ·)
    | '"' :: s => (readString? s).map fun (cs, s) => (.str (String.ofList cs), s)
    | '-' :: s => readMagnitude? true s
    | '[' :: s =>
      match s.dropWhile isSpace with
      | ']' :: s => some (.arr [], s)
      | s => (readItems? fuel s).map fun (items, s) => (.arr items, s)
    | '{' :: s =>
      match s.dropWhile isSpace with
      | '}' :: s => some (.obj [], s)
      | s => (readFields? fuel [] s).map fun (fields, s) => (.obj fields, s)
    | s => readMagnitude? false s

/-- The items of a non-empty list up to its closing bracket. -/
def readItems? : (fuel : Nat) → List Char → Option (List Tree × List Char)
  | 0, _ => none
  | fuel + 1, s => do
    let (item, s) ← readValue? fuel s
    match s.dropWhile isSpace with
    | ',' :: s =>
      let (items, s) ← readItems? fuel s
      return (item :: items, s)
    | ']' :: s => return ([item], s)
    | _ => none

/-- The fields of a non-empty object up to its closing brace, joined to those read before. -/
def readFields? : (fuel : Nat) → List (String × Tree) → List Char →
    Option (List (String × Tree) × List Char)
  | 0, _, _ => none
  | fuel + 1, before, s =>
    match s.dropWhile isSpace with
    | '"' :: s => do
      let (name, s) ← readString? s
      match s.dropWhile isSpace with
      | ':' :: s =>
        let (value, s) ← readValue? fuel s
        let fields := setField (String.ofList name) value before
        match s.dropWhile isSpace with
        | ',' :: s => readFields? fuel fields s
        | '}' :: s => return (fields, s)
        | _ => none
      | _ => none
    | _ => none

end

/-- Read a text that holds one value and nothing else. Every call takes a character off the text,
so twice its length is fuel enough. -/
def read? (text : String) : Option Tree :=
  let s := text.toList
  match readValue? (2 * s.length + 1) s with
  | some (value, rest) => if (rest.dropWhile isSpace).isEmpty then some value else none
  | none => none

end ListMode.Tree.Json
