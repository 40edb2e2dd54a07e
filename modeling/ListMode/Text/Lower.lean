import ListMode.Text.CaseTables

/-!
# Lower case

The lower-case form of a text by the rules of Unicode. Every character has a form of its own, except
that a capital sigma at the end of a word becomes the final one: a letter stands before it and none
after it, where some marks are passed over.
-/

namespace ListMode.Text

def inRanges (ranges : List (Nat × Nat)) (n : Nat) : Bool :=
  ranges.any fun (first, last) => first ≤ n && n ≤ last

/-- Code point of the lower-case form of a character that has one of a single character. -/
def lowerCode (n : Nat) : Nat :=
  match upperRuns.find? fun (first, last, _) => first ≤ n && n ≤ last with
  | some (_, _, shift) => (n + shift).toNat
  | none =>
    if alternatingRuns.any fun (first, last) => first ≤ n && n ≤ last && (n - first) % 2 == 0 then n + 1
    else n

/-- The lower-case form of a character by itself. The capital I with a dot keeps its dot as a mark. -/
def lowerChar (c : Char) : List Char :=
  if c.toNat = 0x130 then ['i', '\u0307'] else [Char.ofNat (lowerCode c.toNat)]

/-- Whether the first character that is not passed over has letter case. -/
def meetsLetter (s : List Char) : Bool :=
  match s.dropWhile fun c => inRanges ignorableRanges c.toNat with
  | c :: _ => inRanges casedRanges c.toNat
  | [] => false

/-- Lower case of `s`, before which stands the text whose reverse is `before`. -/
def lowerFrom (before : List Char) : List Char → List Char
  | [] => []
  | c :: rest =>
    let here :=
      if c = 'Σ' then
        if meetsLetter before && !meetsLetter rest then ['ς'] else ['σ']
      else lowerChar c
    here ++ lowerFrom (c :: before) rest

def lower (s : String) : String := String.ofList (lowerFrom [] s.toList)

end ListMode.Text
