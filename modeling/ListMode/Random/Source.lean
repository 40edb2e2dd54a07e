import ListMode.Random.ChaCha

/-!
# Random draws

A source is an endless stream of 32-bit words, made block by block. Draws are functions of the
words alone, so whatever is said about every source is said about every outcome. A draw from a range
of whole numbers rejects words that would favour some numbers; its result lies in the range whether
or not it gives up rejecting.
-/

namespace ListMode.Random

/-- An endless stream of words: those `ahead`, then the blocks from `index` on. -/
structure Source where
  block : Nat → List UInt32
  index : Nat
  ahead : List UInt32

namespace Source

instance : Inhabited Source := ⟨⟨fun _ => [], 0, []⟩⟩

/-- The next word. -/
def word32 (s : Source) : UInt32 × Source :=
  match s.ahead with
  | w :: ahead => (w, { s with ahead })
  | [] =>
    match s.block s.index with
    | [] => (0, { s with index := s.index + 1 })
    | w :: ahead => (w, { s with index := s.index + 1, ahead })

/-- The next two words as one, the first in the low half. -/
def word64 (s : Source) : UInt64 × Source :=
  let (lo, s) := s.word32
  let (hi, s) := s.word32
  (lo.toUInt64 ||| (hi.toUInt64 <<< 32), s)

/-! ## Seeding -/

/-- One step of the generator that stretches a seed. -/
def stretch (state : UInt64) : UInt64 := state * 6364136223846793005 + 11634580027462260723

/-- The key word that belongs to a state of the stretching generator. -/
def keyWord (state : UInt64) : UInt32 :=
  let mixed := (((state >>> 18) ^^^ state) >>> 27).toUInt32
  let turn := (state >>> 59).toUInt32
  if turn = 0 then mixed else rotateLeft mixed (32 - turn)

/-- The first `n` key words after `state`. -/
def keyWords : (n : Nat) → UInt64 → List UInt32
  | 0, _ => []
  | n + 1, state => let state := stretch state; keyWord state :: keyWords n state

/-- The key that belongs to a seed. -/
def key (seed : UInt64) : Vector UInt32 8 :=
  let words := keyWords 8 seed
  Vector.ofFn fun i => words.getD i 0

/-- Double rounds of the block function. -/
def rounds : Nat := 6

/-- The source that belongs to a seed. -/
def ofSeed (seed : UInt64) : Source :=
  let k := key seed
  ⟨fun n => (ChaCha.block rounds k (UInt64.ofNat n)).toList, 0, []⟩

/-! ## Draws -/

/-- How often a draw is repeated before its bias is accepted. Each draw is rejected with a
probability below one half. -/
def patience : Nat := 128

/-- High part of `word · n`, repeated while the low part is above `zone`. -/
def reject (base : Nat) (next : Source → Nat × Source) (n zone : Nat) :
    (tries : Nat) → Source → Nat × Source
  | 0, s =>
    let (w, s) := next s
    (w % base * n / base, s)
  | tries + 1, s =>
    let (w, s') := next s
    if w % base * n % base ≤ zone then (w % base * n / base, s') else reject base next n zone tries s'

/-- A number below `n`, for `0 < n < 2 ^ 64`. -/
def below (n : Nat) (s : Source) : Nat × Source :=
  let zone := n <<< (63 - Nat.log2 n) - 1
  reject 0x10000000000000000 (fun s => (s.word64.1.toNat, s.word64.2)) n zone patience s

/-- A number up to `m`. -/
def upTo16 (m : UInt16) (s : Source) : UInt16 × Source :=
  let n := m.toNat + 1
  if n = 0x10000 then
    let (w, s) := s.word32
    (w.toUInt16, s)
  else
    let zone := 0x100000000 - 1 - (0x100000000 - n) % n
    let (k, s) := reject 0x100000000 (fun s => (s.word32.1.toNat, s.word32.2)) n zone patience s
    (UInt16.ofNat k, s)

/-- True in `threshold` of `2 ^ 64` cases. -/
def chance (threshold : Nat) (s : Source) : Bool × Source :=
  let (w, s) := s.word64
  (decide (w.toNat < threshold), s)

/-- The largest fraction that is drawn, `1 - 2 ^ -52`. -/
def largestFraction : Float := Float.ofBits 0x3FEFFFFFFFFFFFFE

/-- Step down from `scale` until no draw exceeds `high`. -/
def fitScale (high : Float) : (tries : Nat) → Float → Float
  | 0, scale => scale
  | tries + 1, scale =>
    if scale * largestFraction > high then fitScale high tries (Float.ofBits (scale.toBits - 1))
    else scale

/-- A double from zero to `high`. `none` if there is no such range, or it is too wide. -/
def upToFloat? (high : Float) (s : Source) : Option (Float × Source) :=
  let scale := high / largestFraction
  if 0.0 ≤ high && scale.isFinite then
    let (w, s) := s.word64
    let fraction := Float.ofBits ((w >>> 12) ||| 0x3FF0000000000000) - 1.0
    some (fraction * fitScale high 8 scale, s)
  else none

/-- `f` drawn `n` times. -/
def times (f : Source → α × Source) : (n : Nat) → Source → List α × Source
  | 0, s => ([], s)
  | n + 1, s =>
    let (a, s) := f s
    let (rest, s) := times f n s
    (a :: rest, s)

/-! ## Ranges -/

theorem reject_lt {base n zone : Nat} (hb : 0 < base) (hn : 0 < n) (next : Source → Nat × Source)
    (tries : Nat) (s : Source) : (reject base next n zone tries s).1 < n := by
  have key : ∀ w, w % base * n / base < n := fun w => by
    rw [Nat.div_lt_iff_lt_mul hb, Nat.mul_comm n base]
    exact Nat.mul_lt_mul_of_pos_right (Nat.mod_lt w hb) hn
  induction tries generalizing s with
  | zero => exact key _
  | succ tries ih =>
    simp only [reject]
    split
    · exact key _
    · exact ih _

theorem below_lt {n : Nat} (hn : 0 < n) (s : Source) : (s.below n).1 < n :=
  reject_lt (by decide) hn _ _ _

theorem upTo16_le (m : UInt16) (s : Source) : (s.upTo16 m).1 ≤ m := by
  have hm := m.toNat_lt
  rw [UInt16.le_iff_toNat_le]
  by_cases h : m.toNat + 1 = 0x10000
  · have := (s.upTo16 m).1.toNat_lt
    omega
  · have hlt : (reject 0x100000000 (fun s => (s.word32.1.toNat, s.word32.2)) (m.toNat + 1)
        (0x100000000 - 1 - (0x100000000 - (m.toNat + 1)) % (m.toNat + 1)) patience s).1 < m.toNat + 1 :=
      reject_lt (by decide) (by omega) _ _ _
    simp only [upTo16, h, if_false, UInt16.toNat_ofNat']
    omega

@[simp] theorem length_times (f : Source → α × Source) (n : Nat) (s : Source) :
    (times f n s).1.length = n := by
  induction n generalizing s with
  | zero => rfl
  | succ n ih => simp [times, ih]

end Source

end ListMode.Random
