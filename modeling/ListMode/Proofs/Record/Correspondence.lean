import Mathlib.Logic.Function.Defs
import ListMode.Proofs.Record

/-!
# Buffers and lists of hits correspond

A reader goes through a buffer field by field and fails where the buffer ends inside a field. It
gets through the buffers of whole records and no others, and reads the hits that `decode` gives.
Writing these hits gives the buffer back.
-/

namespace ListMode.Record

/-! ## Reading field by field -/

/-- The number in the first `width` bytes, and what is behind them. `none` if there are not as
many. -/
def takeField? (width : Nat) (bs : List UInt8) : Option (Nat × List UInt8) :=
  if width ≤ bs.length then some (natOfBytes (bs.take width), bs.drop width) else none

/-- The hit of the first record, and what is behind it. -/
def takeHit? (bs : List UInt8) : Option (Hit × List UInt8) := do
  let (channel, bs) ← takeField? 2 bs
  let (timestamp, bs) ← takeField? 8 bs
  let (energy, bs) ← takeField? 2 bs
  let (flags, bs) ← takeField? 1 bs
  return ({
    channel := (UInt16.ofNat channel).toInt16
    timestamp := UInt64.ofNat timestamp
    energy := UInt16.ofNat energy
    flags := ⟨UInt8.ofNat flags⟩ }, bs)

section

variable {bs : List UInt8}

theorem takeField?_eq {width : Nat} (h : width ≤ bs.length) :
    takeField? width bs = some (natOfBytes (bs.take width), bs.drop width) := if_pos h

/-- A field that lies in the first record is read from its place there. -/
theorem takeField?_drop (place : Nat) {width : Nat} (hin : place + width ≤ size) (h : size ≤ bs.length) :
    takeField? width (bs.drop place) =
      some (natOfBytes (((bs.take size).drop place).take width), bs.drop (place + width)) := by
  rw [takeField?_eq (by rw [List.length_drop]; omega), List.drop_drop, List.drop_take,
    List.take_take, Nat.min_eq_left (by omega)]

/-- The fields of a record take up the whole of it. -/
theorem takeHit?_eq (h : size ≤ bs.length) :
    takeHit? bs = some (toHit (bs.take size), bs.drop size) := by
  have hchannel : takeField? 2 bs = some (natOfBytes ((bs.take size).take 2), bs.drop 2) :=
    takeField?_drop 0 (by decide) h
  have htimestamp : takeField? 8 (bs.drop 2) =
      some (natOfBytes (((bs.take size).drop 2).take 8), bs.drop 10) :=
    takeField?_drop 2 (by decide) h
  have henergy : takeField? 2 (bs.drop 10) =
      some (natOfBytes (((bs.take size).drop 10).take 2), bs.drop 12) :=
    takeField?_drop 10 (by decide) h
  have hflags : takeField? 1 (bs.drop 12) =
      some (natOfBytes (((bs.take size).drop 12).take 1), bs.drop size) :=
    takeField?_drop 12 (by decide) h
  simp only [takeHit?, hchannel, htimestamp, henergy, hflags, Option.bind_eq_bind, Option.bind_some]
  rfl

/-- Every field that is read makes the rest shorter by its width. -/
theorem length_of_takeField? {width n : Nat} {rest : List UInt8}
    (h : takeField? width bs = some (n, rest)) : bs.length = width + rest.length := by
  unfold takeField? at h
  split at h
  · obtain ⟨-, rfl⟩ := Prod.mk.inj (Option.some.inj h)
    rw [List.length_drop]
    omega
  · nomatch h

/-- A record that is read makes the rest shorter by its size. -/
theorem length_of_takeHit? {hit : Hit} {rest : List UInt8} (h : takeHit? bs = some (hit, rest)) :
    bs.length = size + rest.length := by
  unfold takeHit? at h
  obtain ⟨⟨_, bs₁⟩, h₁, h⟩ := Option.bind_eq_some_iff.mp h
  obtain ⟨⟨_, bs₂⟩, h₂, h⟩ := Option.bind_eq_some_iff.mp h
  obtain ⟨⟨_, bs₃⟩, h₃, h⟩ := Option.bind_eq_some_iff.mp h
  obtain ⟨⟨_, bs₄⟩, h₄, h⟩ := Option.bind_eq_some_iff.mp h
  obtain ⟨-, rfl⟩ := Prod.mk.inj (Option.some.inj h)
  have hl₁ := length_of_takeField? h₁
  have hl₂ := length_of_takeField? h₂
  have hl₃ := length_of_takeField? h₃
  have hl₄ := length_of_takeField? h₄
  unfold size
  omega

end

/-- Hits of the records one after the other, until nothing is left. `none` if the buffer ends inside
a field. -/
def takeHits? (bs : List UInt8) : Option (List Hit) :=
  if bs.isEmpty then some []
  else
    match _hread : takeHit? bs with
    | none => none
    | some (hit, rest) => (takeHits? rest).map (hit :: ·)
termination_by bs.length
decreasing_by
  have hlength := length_of_takeHit? ‹_›
  unfold size at hlength
  omega

section

variable {bs : List UInt8} {hits : List Hit}

theorem decode?_nil : decode? [] = some [] := rfl

/-- A buffer of at least one record is decoded record by record. -/
theorem decode?_of_le (h : size ≤ bs.length) :
    decode? bs = (decode? (bs.drop size)).map (toHit (bs.take size) :: ·) := by
  have hlength : bs.length = (bs.drop size).length + size := by
    rw [List.length_drop]
    omega
  unfold decode?
  rw [hlength, Nat.add_mod_right, Nat.add_div_right _ (by decide)]
  split
  · rfl
  · rfl

/-- A buffer that ends inside its first record is not decoded. -/
theorem decode?_eq_none (hne : bs ≠ []) (h : bs.length < size) : decode? bs = none := by
  have hpos := List.length_pos_iff.mpr hne
  unfold decode?
  rw [Nat.mod_eq_of_lt h, if_neg (by omega)]

/-- The reader gets through exactly the buffers of whole records, and reads their hits. -/
theorem takeHits?_eq_decode? (bs : List UInt8) : takeHits? bs = decode? bs := by
  fun_induction takeHits? bs with
  | case1 bs hempty =>
    rw [List.isEmpty_iff.mp hempty, decode?_nil]
  | case2 bs hne hnone =>
    -- A buffer of at least one record has a first hit.
    have hshort : bs.length < size := by
      refine Nat.lt_of_not_le fun hle => ?_
      rw [takeHit?_eq hle] at hnone
      nomatch hnone
    rw [decode?_eq_none (fun hnil => hne (List.isEmpty_iff.mpr hnil)) hshort]
  | case3 bs hne hit rest hread ih =>
    have hle : size ≤ bs.length := by
      have := length_of_takeHit? hread
      omega
    rw [takeHit?_eq hle] at hread
    obtain ⟨rfl, rfl⟩ := Prod.mk.inj (Option.some.inj hread)
    rw [decode?_of_le hle, ih]

/-! ## Writing what was read -/

/-- A field that was read is written back. -/
theorem bytesOfNat_field {width n : Nat} (h : bs.length = width) (hn : n = natOfBytes bs) :
    bytesOfNat width n = bs := by
  subst h hn
  exact bytesOfNat_natOfBytes bs

theorem natOfBytes_lt_of_length {width : Nat} (h : bs.length = width) :
    natOfBytes bs < Nat.pow 256 width := h ▸ natOfBytes_lt bs

theorem ofHit_toHit (h : bs.length = size) : ofHit (toHit bs) = bs := by
  have hfield : ∀ place width, place + width ≤ 13 → ((bs.drop place).take width).length = width := by
    intro place width hle
    rw [List.length_take, List.length_drop, h]
    exact Nat.min_eq_left (Nat.le_sub_of_add_le' hle)
  have hchannel : bytesOfNat 2 (toHit bs).channel.toUInt16.toNat = bs.take 2 := by
    have hlength : (bs.take 2).length = 2 := hfield 0 2 (by decide)
    refine bytesOfNat_field hlength ?_
    show (UInt16.ofNat (natOfBytes (bs.take 2))).toInt16.toUInt16.toNat = _
    rw [UInt16.toUInt16_toInt16]
    exact UInt16.toNat_ofNat_of_lt' (natOfBytes_lt_of_length hlength)
  have htimestamp : bytesOfNat 8 (toHit bs).timestamp.toNat = (bs.drop 2).take 8 := by
    have hlength := hfield 2 8 (by decide)
    exact bytesOfNat_field hlength
      (UInt64.toNat_ofNat_of_lt' (natOfBytes_lt_of_length hlength))
  have henergy : bytesOfNat 2 (toHit bs).energy.toNat = (bs.drop 10).take 2 := by
    have hlength := hfield 10 2 (by decide)
    exact bytesOfNat_field hlength
      (UInt16.toNat_ofNat_of_lt' (natOfBytes_lt_of_length hlength))
  have hflags : [(toHit bs).flags.bits] = (bs.drop 12).take 1 := by
    have hlength := hfield 12 1 (by decide)
    have hwritten := bytesOfNat_field hlength rfl
    exact hwritten
  have hlast : (bs.drop 12).take 1 = bs.drop 12 :=
    List.take_of_length_le (by rw [List.length_drop, h]; decide)
  rw [ofHit, hchannel, htimestamp, henergy, hflags, hlast, ← List.take_add, ← List.take_add,
    List.take_append_drop]

theorem encode_cons (hit : Hit) (hits : List Hit) : encode (hit :: hits) = ofHit hit ++ encode hits :=
  List.flatMap_cons

/-- The records that were read are written back. -/
theorem encode_readHits {n : Nat} (h : bs.length = n * size) : encode (readHits n bs) = bs := by
  induction n generalizing bs with
  | zero =>
    rw [Nat.zero_mul] at h
    rw [List.eq_nil_of_length_eq_zero h]
    rfl
  | succ n ih =>
    rw [Nat.add_mul, Nat.one_mul] at h
    have hfirst : (bs.take size).length = size := by
      rw [List.length_take]
      omega
    have hrest : (bs.drop size).length = n * size := by
      rw [List.length_drop]
      omega
    rw [readHits, encode_cons, ofHit_toHit hfirst, ih hrest, List.take_append_drop]

theorem decode?_isSome_iff (bs : List UInt8) : (decode? bs).isSome = true ↔ size ∣ bs.length := by
  unfold decode?
  rw [Nat.dvd_iff_mod_eq_zero]
  split
  · rename_i hwhole
    exact iff_of_true rfl hwhole
  · rename_i hbroken
    exact iff_of_false nofun hbroken

theorem encode_of_decode? (h : decode? bs = some hits) : encode hits = bs := by
  unfold decode? at h
  split at h
  · rename_i hwhole
    obtain rfl := Option.some.inj h
    exact encode_readHits (Nat.div_mul_cancel (Nat.dvd_of_mod_eq_zero hwhole)).symm
  · nomatch h

theorem decode?_eq_some_iff : decode? bs = some hits ↔ bs = encode hits :=
  ⟨fun h => (encode_of_decode? h).symm, fun h => h ▸ decode?_encode hits⟩

theorem toOption_decode (bs : List UInt8) : (decode bs).toOption = decode? bs := by
  unfold decode
  split
  · rename_i hits h
    exact h.symm
  · rename_i h
    exact h.symm

theorem decode_eq_ok_iff : decode bs = .ok hits ↔ decode? bs = some hits := by
  unfold decode
  split
  · rename_i hits' h
    rw [h, Except.ok.injEq, Option.some.injEq]
  · rename_i h
    exact iff_of_false nofun (h ▸ nofun)

/-- The buffer of a list of hits, which consists of whole records. -/
def whole (hits : List Hit) : { bs : List UInt8 // 13 ∣ bs.length } :=
  ⟨encode hits, hits.length, (length_encode hits).trans (Nat.mul_comm _ _)⟩

/-- Any list of hits is read back from its buffer, which holds thirteen bytes for each of them. A
buffer is decoded exactly if it consists of whole records; then a reader that fails at the end of
the buffer reads the same hits without failing, and writing them gives the buffer back. So the
buffers of whole records and the lists of hits correspond one to one. -/
theorem buffers_correspond :
    (∀ hits, decode (encode hits) = .ok hits ∧ (encode hits).length = 13 * hits.length) ∧
    (∀ bs hits, decode bs = .ok hits ↔ bs = encode hits) ∧
    (∀ bs, (∃ hits, decode bs = .ok hits) ↔ 13 ∣ bs.length) ∧
    (∀ bs, takeHits? bs = (decode bs).toOption) ∧
    Function.Bijective whole := by
  have hencoded : ∀ bs hits, decode bs = .ok hits ↔ bs = encode hits :=
    fun bs hits => decode_eq_ok_iff.trans decode?_eq_some_iff
  have hwhole : ∀ bs, (∃ hits, decode bs = .ok hits) ↔ 13 ∣ bs.length := by
    intro bs
    refine Iff.trans ?_ (decode?_isSome_iff bs)
    rw [Option.isSome_iff_exists]
    exact exists_congr fun hits => decode_eq_ok_iff
  refine ⟨fun hits => ⟨(hencoded _ _).mpr rfl, ?_⟩, hencoded, hwhole, fun bs => ?_, ?_, ?_⟩
  · exact (length_encode hits).trans (Nat.mul_comm _ _)
  · rw [takeHits?_eq_decode?, toOption_decode]
  · intro hits hits' he
    have hsame : encode hits = encode hits' := congrArg Subtype.val he
    have hread : Except.ok hits = decode (encode hits) := ((hencoded _ _).mpr rfl).symm
    exact Except.ok.inj (hread.trans ((hencoded _ _).mpr hsame))
  · rintro ⟨bs, hbs⟩
    obtain ⟨hits, hhits⟩ := (hwhole bs).mpr hbs
    exact ⟨hits, Subtype.ext ((hencoded bs hits).mp hhits).symm⟩

/-- The fields in their order, the low byte of each first. -/
example : encode [⟨-2, 0x0102030405060708, 0xABCD, .pileup⟩] =
    [0xFE, 0xFF, 8, 7, 6, 5, 4, 3, 2, 1, 0xCD, 0xAB, 1] := by decide

end

end ListMode.Record
