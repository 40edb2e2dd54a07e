import ListMode.Text.Blank
import ListMode.Text.Digits

/-!
# Run identifiers

A run is identified by 128 bits, written as 32 hexadecimal digits in five groups. The reader also
takes the digits without hyphens, in braces, or as a `urn:uuid:` name, in either letter case.
-/

namespace ListMode

/-- Identifier stamped on both boundaries of a run. -/
structure RunId where
  bits : BitVec 128
  deriving DecidableEq, Repr, Inhabited

namespace RunId

/-- The identifier with the given bits, except those that mark it as random. -/
def random (bits : BitVec 128) : RunId :=
  ⟨(bits &&& ~~~(0xf000c000000000000000#128)) ||| 0x40008000000000000000#128⟩

/-- Lengths of the groups of digits. -/
def groups : List Nat := [8, 4, 4, 4, 12]

/-- Cut a text into groups joined by hyphens. -/
def hyphenate : List Nat → List Char → List (List Char)
  | [], _ => []
  | n :: ns, s => s.take n :: hyphenate ns (s.drop n)

/-- The written form. -/
def text (id : RunId) : String :=
  "-".intercalate ((hyphenate groups (Text.numeral 16 32 id.bits.toNat).toList).map String.ofList)

/-- Digits without hyphens. -/
def readDigits? (s : List Char) : Option RunId :=
  if s.length = 32 then (Text.readNat? 16 s).map fun n => ⟨BitVec.ofNat 128 n⟩ else none

/-- Digits in hyphenated groups. -/
def readGroups? (s : List Char) : Option RunId :=
  let pieces := Text.splitAt '-' s
  if pieces.map List.length = groups then readDigits? pieces.flatten else none

/-- Read an identifier in any of its forms. -/
def read? (text : String) : Option RunId :=
  let s := text.toList
  match s with
  | '{' :: rest =>
    if rest.getLast? = some '}' then readGroups? rest.dropLast else none
  | _ =>
    match Text.strip? "urn:uuid:".toList s with
    | some rest => readGroups? rest
    | none => if s.length = 32 then readDigits? s else readGroups? s

end RunId

end ListMode
