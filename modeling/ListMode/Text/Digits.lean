/-!
# Numerals

Positional numerals in bases up to sixteen. Values are natural numbers; ranges are the business of
whoever reads a numeral.
-/

namespace ListMode.Text

/-- Value of a digit in base sixteen, either letter case. -/
def digitValue? (c : Char) : Option Nat :=
  let n := c.toNat
  if 48 ≤ n ∧ n ≤ 57 then some (n - 48)
  else if 97 ≤ n ∧ n ≤ 102 then some (n - 87)
  else if 65 ≤ n ∧ n ≤ 70 then some (n - 55)
  else none

def digitIn? (base : Nat) (c : Char) : Option Nat :=
  (digitValue? c).filter (· < base)

def isDigit (c : Char) : Bool := (digitIn? 10 c).isSome

/-- Value of the digits `ds` of `base` appended to a numeral with value `value`. -/
def readDigits? (base : Nat) (value : Nat) : List Char → Option Nat
  | [] => some value
  | c :: rest => (digitIn? base c).bind fun d => readDigits? base (value * base + d) rest

/-- Value of a non-empty numeral of `base`. -/
def readNat? (base : Nat) (s : List Char) : Option Nat :=
  if s.isEmpty then none else readDigits? base 0 s

/-- Value of a numeral that may carry a plus sign. -/
def readPlusNat? (base : Nat) : List Char → Option Nat
  | '+' :: s => readNat? base s
  | s => readNat? base s

/-- Value of a decimal numeral that may carry either sign. -/
def readInt? : List Char → Option Int
  | '-' :: s => (readNat? 10 s).map fun n => -(n : Int)
  | s => (readPlusNat? 10 s).map fun n => (n : Int)

/-- The digit with value `d < 16`, letters in lower case. -/
def digitChar (d : Nat) : Char := Nat.digitChar d

/-- Numeral of `n` in `base` with at least `width` digits. -/
def numeral (base width n : Nat) : String :=
  let ds := Nat.toDigits base n
  String.ofList (List.replicate (width - ds.length) '0' ++ ds)

def hexByte (b : UInt8) : String := numeral 16 2 b.toNat

/-- Bytes written as pairs of hexadecimal digits. -/
def hexBytes (bs : List UInt8) : String := String.join (bs.map hexByte)

/-- Bytes read from pairs of hexadecimal digits. -/
def readHexBytes? : List Char → Option (List UInt8)
  | [] => some []
  | [_] => none
  | a :: b :: rest => do
    let hi ← digitIn? 16 a
    let lo ← digitIn? 16 b
    let more ← readHexBytes? rest
    return UInt8.ofNat (hi * 16 + lo) :: more

end ListMode.Text
