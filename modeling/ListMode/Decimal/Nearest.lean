/-!
# From a decimal to the nearest double

A non-negative quotient of natural numbers is rounded to the nearest IEEE 754 double, a tie going
to the even significand. All arithmetic is exact; only the last step makes a `Float` of the bits.
-/

namespace ListMode.Decimal

/-- `num / den` rounded to the nearest integer, a tie to the even one. -/
def roundDiv (num den : Nat) : Nat :=
  let q := num / den
  let r := num % den
  if 2 * r < den then q else if den < 2 * r then q + 1 else q + q % 2

/-- Largest `l` with `2 ^ l ≤ num / den`, for positive `num` and `den`. -/
def floorLog2 (num den : Nat) : Int :=
  let l : Int := (num.log2 : Int) - den.log2
  if num * Nat.pow 2 (-l).toNat < den * Nat.pow 2 l.toNat then l - 1 else l

def infinityBits : Nat := 0x7FF0000000000000

/-- Bits of the double nearest to `num / den`. The significand's unit is `2 ^ e`, and the smallest
unit is `2 ^ (-1074)`; adding a full significand to the exponent field carries by itself. -/
def nearestBits (num den : Nat) : Nat :=
  if num = 0 then 0
  else
    let e := max (floorLog2 num den - 52) (-1074)
    let significand := roundDiv (num * Nat.pow 2 (-e).toNat) (den * Nat.pow 2 e.toNat)
    min ((e + 1074).toNat * 0x10000000000000 + significand) infinityBits

/-- The double with the given sign nearest to `digits · 10 ^ exponent`. Exponents beyond every
double are decided without computing the power. -/
def toFloat (negative : Bool) (digits : Nat) (exponent : Int) : Float :=
  let bits :=
    if digits = 0 then 0
    else if 400 < exponent then infinityBits
    else if exponent < -400 - (digits.log2 : Int) then 0
    else nearestBits (digits * Nat.pow 10 exponent.toNat) (Nat.pow 10 (-exponent).toNat)
  Float.ofBits (UInt64.ofNat (bits + if negative then 0x8000000000000000 else 0))

end ListMode.Decimal
