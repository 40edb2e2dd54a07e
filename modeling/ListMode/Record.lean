import ListMode.Fault
import ListMode.Hit

/-!
# List-mode records

The device-native buffer format `list_mode_v1`: one record of thirteen bytes per hit, without
header or padding. A record holds, least significant byte first, the channel in two bytes, the time
stamp in eight, the energy in two, and the flags in one. Buffers of whole records and lists of hits
correspond one to one.
-/

namespace ListMode

/-- The `width` low bytes of `n`, least significant first. -/
def bytesOfNat : (width n : Nat) → List UInt8
  | 0, _ => []
  | width + 1, n => UInt8.ofNat n :: bytesOfNat width (n / 256)

/-- The number whose bytes are given, least significant first. -/
def natOfBytes : List UInt8 → Nat
  | [] => 0
  | b :: rest => b.toNat + 256 * natOfBytes rest

@[simp] theorem length_bytesOfNat (width n : Nat) : (bytesOfNat width n).length = width := by
  induction width generalizing n with
  | zero => rfl
  | succ width ih => simp [bytesOfNat, ih]

theorem natOfBytes_lt (bs : List UInt8) : natOfBytes bs < Nat.pow 256 bs.length := by
  induction bs with
  | nil => exact Nat.one_pos
  | cons b rest ih =>
    have hb := b.toNat_lt
    have hp : Nat.pow 256 (b :: rest).length = Nat.pow 256 rest.length * 256 := rfl
    rw [natOfBytes, hp]
    omega

theorem natOfBytes_bytesOfNat (width n : Nat) :
    natOfBytes (bytesOfNat width n) = n % Nat.pow 256 width := by
  induction width generalizing n with
  | zero => exact (Nat.mod_one n).symm
  | succ width ih =>
    have hp : Nat.pow 256 (width + 1) = 256 * Nat.pow 256 width := Nat.mul_comm _ _
    rw [bytesOfNat, natOfBytes, ih, hp, Nat.mod_mul, UInt8.toNat_ofNat']

theorem bytesOfNat_natOfBytes (bs : List UInt8) :
    bytesOfNat bs.length (natOfBytes bs) = bs := by
  induction bs with
  | nil => rfl
  | cons b rest ih =>
    have hb := b.toNat_lt
    have hdiv : (b.toNat + 256 * natOfBytes rest) / 256 = natOfBytes rest := by omega
    have hlow : UInt8.ofNat (b.toNat + 256 * natOfBytes rest) = b := by
      apply UInt8.toNat_inj.mp
      rw [UInt8.toNat_ofNat']
      omega
    rw [List.length_cons, natOfBytes, bytesOfNat, hdiv, hlow, ih]

namespace Record

/-- Name of the buffer format. -/
def format : String := "list_mode_v1"

/-- Bytes per hit. -/
def size : Nat := 13

/-- The record of one hit. -/
def ofHit (h : Hit) : List UInt8 :=
  bytesOfNat 2 h.channel.toUInt16.toNat ++ bytesOfNat 8 h.timestamp.toNat ++
    bytesOfNat 2 h.energy.toNat ++ [h.flags.bits]

/-- The hit of one record. -/
def toHit (bs : List UInt8) : Hit where
  channel := (UInt16.ofNat (natOfBytes (bs.take 2))).toInt16
  timestamp := UInt64.ofNat (natOfBytes ((bs.drop 2).take 8))
  energy := UInt16.ofNat (natOfBytes ((bs.drop 10).take 2))
  flags := ⟨UInt8.ofNat (natOfBytes ((bs.drop 12).take 1))⟩

/-- The buffer holding the records of `hits` one after the other. -/
def encode (hits : List Hit) : List UInt8 := hits.flatMap ofHit

/-- The hits of the first `n` records of a buffer. -/
def readHits : (n : Nat) → List UInt8 → List Hit
  | 0, _ => []
  | n + 1, bs => toHit (bs.take size) :: readHits n (bs.drop size)

/-- The hits of a buffer, if it consists of whole records. -/
def decode? (bs : List UInt8) : Option (List Hit) :=
  if bs.length % size = 0 then some (readHits (bs.length / size) bs) else none

/-- The hits of a buffer, or the reason why it has none. -/
def decode (bs : List UInt8) : Except Fault (List Hit) :=
  match decode? bs with
  | some hits => .ok hits
  | none =>
    .error (.decode s!"buffer of {bs.length} bytes is not a whole number of {size}-byte records")

end Record

end ListMode
