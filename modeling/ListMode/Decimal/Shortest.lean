import ListMode.Text.Digits

/-!
# Shortest decimal of a double

The fewest digits that still read back as a given double, found on exact integers: the reals that
round to the double form an interval, and for one digit, two digits and so on the two decimals next
to the double are tested against it. The first that lies inside wins; of two the nearer one, and of
two equally near ones the larger.
-/

namespace ListMode.Decimal

/-- A finite double without its sign: `significand · 2 ^ exponent`. -/
structure Binary where
  significand : Nat
  exponent : Int
  /-- The next smaller double is only half a unit away. -/
  narrowBelow : Bool
  deriving DecidableEq, Repr

/-- Significand and exponent of the double with the given bits, sign left out. -/
def Binary.ofBits (bits : Nat) : Binary :=
  let fraction := bits % 0x10000000000000
  let field := bits / 0x10000000000000 % 2048
  if field = 0 then ⟨fraction, -1074, false⟩
  else ⟨fraction + 0x10000000000000, Int.ofNat field - 1075, fraction = 0 ∧ 1 < field⟩

/-- Four times the significands of the interval's ends, so that both are whole. -/
def Binary.lower (b : Binary) : Nat := 4 * b.significand - if b.narrowBelow then 1 else 2
def Binary.upper (b : Binary) : Nat := 4 * b.significand + 2

/-- `v · 2 ^ (exponent - 2)` as numerator and denominator. -/
def Binary.quarters (b : Binary) (v : Nat) : Nat × Nat :=
  (v * Nat.pow 2 (b.exponent - 2).toNat, Nat.pow 2 (2 - b.exponent).toNat)

/-- Whether `digits · 10 ^ k` rounds to `b`; the ends of the interval count iff the significand is
even. -/
def Binary.covers (b : Binary) (digits : Nat) (k : Int) : Bool :=
  let num := digits * Nat.pow 10 k.toNat
  let den := Nat.pow 10 (-k).toNat
  let (lo, loDen) := b.quarters b.lower
  let (hi, hiDen) := b.quarters b.upper
  if b.significand % 2 = 0 then lo * den ≤ num * loDen && num * hiDen ≤ hi * den
  else lo * den < num * loDen && num * hiDen < hi * den

def digitCount (n : Nat) : Nat := (Nat.toDigits 10 n).length

/-- Exponent of the leading decimal digit of a positive double. Four hundred more places make the
value of every double exceed one. -/
def Binary.leading (b : Binary) : Int :=
  let (num, den) := b.quarters (4 * b.significand)
  Int.ofNat (digitCount (num * Nat.pow 10 400 / den)) - 401

/-- The better of the two decimals with `n` digits next to `b`, if one rounds to it. -/
def Binary.withDigits? (b : Binary) (n : Nat) : Option (Nat × Int) :=
  let k := b.leading - (n : Int) + 1
  let (num, den) := b.quarters (4 * b.significand)
  let num := num * Nat.pow 10 (-k).toNat
  let den := den * Nat.pow 10 k.toNat
  let below := num / den
  let nearAbove := den ≤ 2 * (num % den)
  match b.covers below k, b.covers (below + 1) k with
  | true, true => some (if nearAbove then below + 1 else below, k)
  | true, false => some (below, k)
  | false, true => some (below + 1, k)
  | false, false => none

/-- Digits and decimal exponent of the shortest decimal of a positive double. Seventeen digits
always suffice. -/
def shortest (b : Binary) : Nat × Int :=
  ((List.range 17).findSome? fun i => b.withDigits? (i + 1)).getD (0, 0)

/-- `digits · 10 ^ k` in positional notation, without an exponent. -/
def positional (digits : Nat) (k : Int) : String :=
  let ds := Nat.toDigits 10 digits
  let places := (-k).toNat
  let padded := List.replicate (places + 1 - ds.length) '0' ++ ds ++ List.replicate k.toNat '0'
  let whole := padded.take (padded.length - places)
  let fraction := (padded.drop (padded.length - places)).reverse.dropWhile (· = '0')
  String.ofList (whole ++ if fraction.isEmpty then [] else '.' :: fraction.reverse)

/-- A double in positional notation with the fewest digits that read back. -/
def text (x : Float) : String :=
  let bits := x.toBits.toNat
  let sign := if 0x8000000000000000 ≤ bits then "-" else ""
  if x.isNaN then "NaN"
  else if x.isInf then sign ++ "inf"
  else
    let b := Binary.ofBits bits
    if b.significand = 0 then sign ++ "0"
    else
      let (digits, k) := shortest b
      sign ++ positional digits k

end ListMode.Decimal
