import ListMode.Text.Blank
import ListMode.Text.Digits

/-!
# Named bits of a byte

A byte of flags is written as the names of its set bits in declaration order, joined by ` | `,
followed by the bits without a name as one hexadecimal numeral. Reading unites what it finds and
keeps bits without a name.
-/

namespace ListMode

/-! ## Bytes as sets of bits -/

namespace Bits

def contains (a b : UInt8) : Bool := a &&& b == b

def intersects (a b : UInt8) : Bool := a &&& b != 0

def minus (a b : UInt8) : UInt8 := a &&& ~~~b

end Bits

/-! ## Names -/

/-- Names of single bits, in declaration order. -/
structure BitNames where
  bits : List (String × UInt8)

namespace BitNames

def all (t : BitNames) : UInt8 := t.bits.foldl (fun acc e => acc ||| e.2) 0

/-- The bits of `b` that have a name. -/
def truncate (t : BitNames) (b : UInt8) : UInt8 := b &&& t.all

/-- The bits that have a name and are not in `b`. -/
def complement (t : BitNames) (b : UInt8) : UInt8 := t.truncate (~~~b)

/-- `b` itself if each of its bits has a name. -/
def strict? (t : BitNames) (b : UInt8) : Option UInt8 :=
  if t.truncate b = b then some b else none

/-- Names of the bits of `b`, then the unnamed bits as a numeral if there are any. -/
def words (t : BitNames) (b : UInt8) : List String :=
  let rest := Bits.minus b t.all
  (t.bits.filter fun e => Bits.contains b e.2).map (·.1) ++
    if rest = 0 then [] else ["0x" ++ Text.numeral 16 1 rest.toNat]

/-- The written form of a byte of flags; nothing for the empty set. -/
def text (t : BitNames) (b : UInt8) : String := " | ".intercalate (t.words b)

/-- One word of the written form: `0x` and a hexadecimal numeral of at most a byte, or a name. -/
def readWord? (t : BitNames) (w : List Char) : Option UInt8 :=
  match Text.strip? ['0', 'x'] w with
  | some digits =>
    (Text.readPlusNat? 16 digits).bind fun n => if n < 256 then some (UInt8.ofNat n) else none
  | none => (t.bits.find? fun e => e.1.toList = w).map (·.2)

/-- Read a byte of flags. A blank text is the empty set; otherwise no word may be missing. -/
def read? (t : BitNames) (s : String) : Option UInt8 :=
  if (Text.trim s.toList).isEmpty then some 0
  else
    (Text.splitAt '|' s.toList).foldlM
      (fun acc piece => (t.readWord? (Text.trim piece)).map (acc ||| ·)) 0

end BitNames

end ListMode
