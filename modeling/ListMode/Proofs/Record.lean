import ListMode.Record

/-!
# Records and hits correspond

What was written to a buffer is read back from it.
-/

namespace ListMode.Record

theorem length_ofHit (h : Hit) : (ofHit h).length = size := by
  simp [ofHit, size]

/-- A field of a record is read back from its place. -/
theorem natOfBytes_field {place width n : Nat} (hn : n < Nat.pow 256 width)
    (before : List UInt8) (hb : before.length = place) (after : List UInt8) :
    natOfBytes (((before ++ bytesOfNat width n ++ after).drop place).take width) = n := by
  rw [List.append_assoc, List.drop_left' hb, List.take_left' (length_bytesOfNat width n),
    natOfBytes_bytesOfNat, Nat.mod_eq_of_lt hn]

theorem toHit_ofHit (h : Hit) : toHit (ofHit h) = h := by
  obtain ⟨channel, timestamp, energy, ⟨bits⟩⟩ := h
  let front := bytesOfNat 2 channel.toUInt16.toNat ++ bytesOfNat 8 timestamp.toNat
  have hrecord : ofHit ⟨channel, timestamp, energy, ⟨bits⟩⟩ =
      front ++ bytesOfNat 2 energy.toNat ++ [bits] := rfl
  have hchannel : natOfBytes ((ofHit ⟨channel, timestamp, energy, ⟨bits⟩⟩).take 2) =
      channel.toUInt16.toNat := by
    rw [hrecord, List.append_assoc, List.append_assoc]
    exact natOfBytes_field channel.toUInt16.toNat_lt [] rfl _
  have htimestamp : natOfBytes (((ofHit ⟨channel, timestamp, energy, ⟨bits⟩⟩).drop 2).take 8) =
      timestamp.toNat := by
    rw [hrecord, List.append_assoc]
    exact natOfBytes_field timestamp.toNat_lt _ (length_bytesOfNat _ _) _
  have henergy : natOfBytes (((ofHit ⟨channel, timestamp, energy, ⟨bits⟩⟩).drop 10).take 2) =
      energy.toNat := by
    rw [hrecord]
    exact natOfBytes_field energy.toNat_lt _ (by simp [front]) _
  have hbits : natOfBytes (((ofHit ⟨channel, timestamp, energy, ⟨bits⟩⟩).drop 12).take 1) =
      bits.toNat := by
    rw [hrecord, List.drop_left' (by simp [front])]
    exact Nat.add_zero _
  unfold toHit
  rw [hchannel, htimestamp, henergy, hbits]
  simp

/-- The records of a buffer of whole records. -/
theorem readHits_encode (hits : List Hit) : readHits hits.length (encode hits) = hits := by
  induction hits with
  | nil => rfl
  | cons h rest ih =>
    show toHit ((ofHit h ++ encode rest).take size) ::
      readHits rest.length ((ofHit h ++ encode rest).drop size) = h :: rest
    rw [List.take_left' (length_ofHit h), List.drop_left' (length_ofHit h), toHit_ofHit, ih]

theorem length_encode (hits : List Hit) : (encode hits).length = hits.length * size := by
  induction hits with
  | nil => rfl
  | cons h rest ih =>
    show (ofHit h ++ encode rest).length = (rest.length + 1) * size
    rw [List.length_append, length_ofHit, ih, Nat.add_mul, Nat.one_mul, Nat.add_comm]

/-- A buffer that was written is read back. -/
theorem decode?_encode (hits : List Hit) : decode? (encode hits) = some hits := by
  unfold decode?
  rw [length_encode, Nat.mul_mod_left, if_pos rfl, Nat.mul_div_cancel _ (by decide),
    readHits_encode]

end ListMode.Record
