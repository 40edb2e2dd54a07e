import Mathlib.Algebra.Order.Field.Power
import Mathlib.Algebra.Order.Field.Rat
import Mathlib.Tactic.Ring
import ListMode.Random.Source

/-!
# How large the doubles are that are drawn

A drawn double is a fraction of the width of its range, and rounding takes it past no power of two:
a number that does not exceed `2 ^ t` is still at most `2 ^ t` when it has been rounded to the
digits of a double. So the width alone bounds every draw.
-/

namespace ListMode.Random

open Float.Model (UnpackedFloat Format totalExponent)
open Float.Model.UnpackedFloat

/-- A number without a minus sign that is at most `2 ^ t`. -/
def Within (t : Nat) : UnpackedFloat → Prop
  | .zero _ => True
  | .finite .positive m e _ => (m : ℚ) * 2 ^ e ≤ 2 ^ t
  | _ => False

section

variable {t : Nat} {u : UnpackedFloat}

theorem within_dite {p : Prop} [Decidable p] {f : p → UnpackedFloat} {g : ¬p → UnpackedFloat}
    (hf : ∀ h, Within t (f h)) (hg : ∀ h, Within t (g h)) : Within t (dite p f g) := by
  by_cases h : p
  · rw [dif_pos h]
    exact hf h
  · rw [dif_neg h]
    exact hg h

/-! ## Rounding -/

/-- Bits that are shifted out are remembered, so a mantissa is rounded up only if some were lost. -/
structure Shifted (m k : Nat) (em : ExtendedMantissa) : Prop where
  mantissa_eq : em.mantissa = m / 2 ^ k
  lost : em.roundBit = true ∨ em.stickyBit = true → em.mantissa * 2 ^ k < m

theorem shifted (m k : Nat) :
    Shifted m k (ExtendedMantissa.ofMantissaAndAccuracy m .exact >>> k) := by
  induction k with
  | zero => exact ⟨(Nat.div_one m).symm, fun h => by rcases h with h | h <;> nomatch h⟩
  | succ k ih =>
    obtain ⟨hmantissa, hlost⟩ := ih
    show Shifted m (k + 1) (ExtendedMantissa.ofMantissaAndAccuracy m .exact >>> k).shiftRightOne
    generalize ExtendedMantissa.ofMantissaAndAccuracy m .exact >>> k = em at hmantissa hlost
    have hhalf : em.mantissa / 2 * 2 ^ (k + 1) = em.mantissa / 2 * 2 * 2 ^ k := by
      rw [Nat.pow_succ', Nat.mul_assoc]
    refine ⟨?_, fun h => ?_⟩
    · show em.mantissa / 2 = _
      rw [hmantissa, Nat.div_div_eq_div_mul, Nat.pow_succ]
    · show em.mantissa / 2 * 2 ^ (k + 1) < m
      rw [hhalf]
      rcases h with hodd | hrest
      · have hodd : em.mantissa % 2 ≠ 0 := bne_iff_ne.mp hodd
        have hlt : em.mantissa / 2 * 2 * 2 ^ k < em.mantissa * 2 ^ k :=
          Nat.mul_lt_mul_of_pos_right (by omega) (Nat.two_pow_pos k)
        refine Nat.lt_of_lt_of_le hlt ?_
        rw [hmantissa]
        exact Nat.div_mul_le_self m (2 ^ k)
      · have hle : em.mantissa / 2 * 2 * 2 ^ k ≤ em.mantissa * 2 ^ k :=
          Nat.mul_le_mul_right _ (by omega)
        exact Nat.lt_of_le_of_lt hle (hlost (Bool.or_eq_true_iff.mp hrest))

theorem Shifted.floor_le {m k : Nat} {em : ExtendedMantissa} (h : Shifted m k em) :
    em.mantissa * 2 ^ k ≤ m := by
  rw [h.mantissa_eq]
  exact Nat.div_mul_le_self m (2 ^ k)

/-- A rounded mantissa is less than one unit above the number. -/
theorem Shifted.rounded_lt {m k : Nat} {em : ExtendedMantissa} (h : Shifted m k em) :
    em.roundedMantissa * 2 ^ k < m + 2 ^ k := by
  have hfloor := h.floor_le
  have hpos := Nat.two_pow_pos k
  obtain ⟨q, round, sticky⟩ := em
  by_cases hlost : round = true ∨ sticky = true
  · have hlt : q * 2 ^ k < m := h.lost hlost
    have hup : (ExtendedMantissa.mk q round sticky).roundedMantissa ≤ q + 1 := by
      unfold ExtendedMantissa.roundedMantissa ExtendedMantissa.accuracy Accuracy.roundToNearestEven
      cases round <;> cases sticky <;> dsimp only <;> omega
    have hle := Nat.mul_le_mul_right (2 ^ k) hup
    rw [Nat.add_mul, Nat.one_mul] at hle
    omega
  · rw [not_or, Bool.not_eq_true, Bool.not_eq_true] at hlost
    obtain ⟨rfl, rfl⟩ := hlost
    change q * 2 ^ k ≤ m at hfloor
    show q * 2 ^ k < m + 2 ^ k
    omega

theorem two_zpow_add (e : Int) (k : Nat) : (2 : ℚ) ^ (e + k) = 2 ^ k * 2 ^ e := by
  rw [add_comm, zpow_add₀ two_ne_zero, zpow_natCast]

theorem Shifted.value_le {m k : Nat} {em : ExtendedMantissa} (h : Shifted m k em) (e : Int) :
    (em.mantissa : ℚ) * 2 ^ (e + k) ≤ m * 2 ^ e := by
  have hfloor : (em.mantissa : ℚ) * 2 ^ k ≤ m := by exact_mod_cast h.floor_le
  have hpos : (0 : ℚ) < 2 ^ e := zpow_pos two_pos e
  calc (em.mantissa : ℚ) * 2 ^ (e + k)
    _ = em.mantissa * 2 ^ k * 2 ^ e := by rw [two_zpow_add, mul_assoc]
    _ ≤ m * 2 ^ e := mul_le_mul_of_nonneg_right hfloor hpos.le

/-- The last digit of a rounded double that is at most `2 ^ t` is no larger than `2 ^ t`. -/
theorem target_le {m : Nat} {e : Int} (h : (m : ℚ) * 2 ^ e ≤ 2 ^ t)
    (hshift : e < Format.binary64.targetExponent (totalExponent m e)) :
    Format.binary64.targetExponent (totalExponent m e) ≤ t := by
  have htarget : Format.binary64.targetExponent (totalExponent m e) =
      max ((m.log2 : Int) + 1 + e - 53) (-1074) := rfl
  rw [htarget] at hshift ⊢
  refine max_le ?_ (by omega)
  by_cases hsmall : m.log2 ≤ 52
  · omega
  · have hm : m ≠ 0 := by
      rintro rfl
      exact hsmall (by decide)
    have hlog : (2 : ℚ) ^ ((m.log2 : Int) + e) ≤ 2 ^ (t : Int) := by
      have hfirst : ((2 ^ m.log2 : Nat) : ℚ) ≤ m := by exact_mod_cast Nat.log2_self_le hm
      rw [zpow_add₀ two_ne_zero, zpow_natCast, zpow_natCast]
      rw [Nat.cast_pow, Nat.cast_two] at hfirst
      exact (mul_le_mul_of_nonneg_right hfirst (zpow_pos two_pos e).le).trans h
    have hle := (zpow_le_zpow_iff_right₀ one_lt_two).mp hlog
    omega

theorem rounded_le {m k : Nat} {e : Int} {em : ExtendedMantissa} (h : (m : ℚ) * 2 ^ e ≤ 2 ^ t)
    (hem : Shifted m k em)
    (hk : k = (Format.binary64.targetExponent (totalExponent m e) - e).toNat) :
    (em.roundedMantissa : ℚ) * 2 ^ (e + k) ≤ 2 ^ t := by
  have hround := hem.rounded_lt
  have hpos : (0 : ℚ) < 2 ^ e := zpow_pos two_pos e
  by_cases hshift : e < Format.binary64.targetExponent (totalExponent m e)
  · -- counted in units of the last digit, both sides are whole numbers
    have hle := target_le h hshift
    obtain ⟨d, hd⟩ : ∃ d : Nat, (t : Int) = d + (e + k) := ⟨(t - (e + k)).toNat, by omega⟩
    have hunit : (2 : ℚ) ^ t = 2 ^ d * 2 ^ (e + k) := by
      rw [← zpow_natCast, hd, add_comm, two_zpow_add]
    have hup : (0 : ℚ) < 2 ^ (e + k) := zpow_pos two_pos _
    have hbelow : (em.roundedMantissa : ℚ) * 2 ^ (e + k) < (2 ^ d + 1) * 2 ^ (e + k) := by
      have hround : (em.roundedMantissa : ℚ) * 2 ^ k < m + 2 ^ k := by exact_mod_cast hround
      calc (em.roundedMantissa : ℚ) * 2 ^ (e + k)
        _ = em.roundedMantissa * 2 ^ k * 2 ^ e := by rw [two_zpow_add, mul_assoc]
        _ < (m + 2 ^ k) * 2 ^ e := mul_lt_mul_of_pos_right hround hpos
        _ = m * 2 ^ e + 2 ^ (e + k) := by rw [two_zpow_add, add_mul]
        _ ≤ (2 ^ d + 1) * 2 ^ (e + k) := by
          rw [add_mul, one_mul, ← hunit]
          exact add_le_add_left h _
    have hlt : (em.roundedMantissa : ℚ) < 2 ^ d + 1 := lt_of_mul_lt_mul_right hbelow hup.le
    have hlt : em.roundedMantissa < 2 ^ d + 1 := by exact_mod_cast hlt
    have hle : (em.roundedMantissa : ℚ) ≤ 2 ^ d := by exact_mod_cast Nat.le_of_lt_succ hlt
    rw [hunit]
    exact mul_le_mul_of_nonneg_right hle hup.le
  · obtain rfl : k = 0 := by omega
    have hle : (em.roundedMantissa : ℚ) ≤ m := by
      rw [Nat.pow_zero, Nat.mul_one] at hround
      exact_mod_cast Nat.le_of_lt_succ hround
    rw [Nat.cast_zero, add_zero]
    exact (mul_le_mul_of_nonneg_right hle hpos.le).trans h

theorem within_rounded {m : Nat} {e : Int} (h : (m : ℚ) * 2 ^ e ≤ 2 ^ t) :
    Within t (roundWithAccuracy .binary64 .positive m e .exact) := by
  have hfirst := rounded_le h (shifted m _) rfl
  exact within_dite (fun _ => trivial) fun _ => ((shifted _ _).value_le _).trans hfirst

theorem within_round {m : Nat} {e : Int} (h : (m : ℚ) * 2 ^ e ≤ 2 ^ t) :
    Within t (UnpackedFloat.round .binary64 .positive m e) := by
  refine within_rounded ?_
  generalize (e - Format.binary64.targetExponent (totalExponent m e)).toNat = k
  calc ((m <<< k : Nat) : ℚ) * 2 ^ (e - k)
    _ = m * (2 ^ k * 2 ^ (e - k)) := by
      rw [Nat.shiftLeft_eq, Nat.cast_mul, Nat.cast_pow, Nat.cast_two, mul_assoc]
    _ = m * 2 ^ e := by
      rw [← zpow_natCast, ← zpow_add₀ two_ne_zero, add_sub_cancel]
    _ ≤ 2 ^ t := h

/-! ## Sixty-four bits -/

theorem unpackSign_packComponents {spec : Format} (s : Sign) (e : BitVec spec.exponentBits)
    (v : BitVec spec.mantissaBitsWithoutImplicit) :
    Sign.ofBitVec (unpackSign (packComponents spec s e v)) = s := by
  have hsign : unpackSign (packComponents spec s e v) = s.toBitVec := by
    delta unpackSign packComponents
    ext i hi
    obtain rfl : i = 0 := by omega
    simp [BitVec.getLsbD_append, BitVec.getElem_append]
  rw [hsign]
  cases s <;> rfl

/-- The bits of a number that has its leading digit in the usual place. -/
theorem unpack_normal (v : BitVec 52) {b : Nat} (hpos : 0 < b) (hb : b < 2047) :
    unpack .binary64 (packComponents .binary64 .positive (BitVec.ofNat 11 b) v) =
      .finite .positive (2 ^ 52 + v.toNat) ((b : Int) - 1075) (by omega) := by
  have hnat : (BitVec.ofNat 11 b).toNat = b := by
    rw [BitVec.toNat_ofNat]
    exact Nat.mod_eq_of_lt (by omega)
  have hones : BitVec.ofNat 11 b ≠ -1#11 := fun h => by
    have hnat' := congrArg BitVec.toNat h
    rw [hnat] at hnat'
    exact absurd (hnat'.trans (by decide)) (Nat.ne_of_lt hb)
  have hzero : BitVec.ofNat 11 b ≠ 0#11 := fun h => by
    have hnat' := congrArg BitVec.toNat h
    rw [hnat] at hnat'
    exact absurd (hnat'.trans (by decide)) (Nat.ne_of_gt hpos)
  have hmantissa : (1#1 ++ v).toNat = 2 ^ 52 + v.toNat := by
    rw [BitVec.toNat_append, ← Nat.shiftLeft_add_eq_or_of_lt v.isLt]
    rfl
  have hexponent := @unpackExponent_packComponents .binary64 .positive (BitVec.ofNat 11 b) v
  have hrest := @unpackMantissa_packComponents .binary64 .positive (BitVec.ofNat 11 b) v
  have hsign := @unpackSign_packComponents .binary64 .positive (BitVec.ofNat 11 b) v
  generalize packComponents .binary64 .positive (BitVec.ofNat 11 b) v = bits at *
  refine ((if_neg (hexponent ▸ hones)).trans (if_neg (hexponent ▸ hzero))).trans ?_
  rw [UnpackedFloat.finite.injEq]
  exact ⟨hsign, hrest ▸ hmantissa, by rw [hexponent, hnat]; rfl⟩

/-- Numbers that begin further down are less than one. -/
theorem within_subnormal (v : BitVec 52) :
    Within t (unpack .binary64 (packComponents .binary64 .positive 0#11 v)) := by
  have hexponent := @unpackExponent_packComponents .binary64 .positive 0#11 v
  have hsign := @unpackSign_packComponents .binary64 .positive 0#11 v
  generalize packComponents .binary64 .positive 0#11 v = bits at *
  unfold unpack
  dsimp only
  rw [hsign, hexponent, if_neg (by decide), if_pos rfl]
  refine within_dite (fun _ => trivial) fun _ => ?_
  show ((@unpackMantissa .binary64 bits).toNat : ℚ) * 2 ^ (-1074 : Int) ≤ 2 ^ t
  generalize @unpackMantissa .binary64 bits = v
  have hv : (v.toNat : ℚ) ≤ 2 ^ 52 := by exact_mod_cast v.isLt.le
  calc (v.toNat : ℚ) * 2 ^ (-1074 : Int)
    _ ≤ 2 ^ 52 * 2 ^ (-1074 : Int) := mul_le_mul_of_nonneg_right hv (zpow_pos two_pos _).le
    _ = 2 ^ (-1022 : Int) := by
      rw [← zpow_natCast, ← zpow_add₀ two_ne_zero]
      rfl
    _ ≤ 2 ^ (t : Int) := zpow_le_zpow_right₀ one_le_two (by omega)
    _ = 2 ^ t := zpow_natCast 2 t

/-- The bits of a positive number that is not too large. -/
theorem pack_finite {m : Nat} {e : Int} (hm : 0 < m) (he : e ≤ 971) :
    pack .binary64 (.finite .positive m e hm) = packComponents .binary64 .positive
      (if m.log2 + 1 = 53 then BitVec.ofNat 11 (e + 1023 + 52).toNat else 0#11)
      (BitVec.ofNat 52 m) := by
  have hroom : ¬2 ^ 11 ≤ (e + 1023 + 52).toNat + 1 := by omega
  unfold pack
  refine (if_neg hroom).trans ?_
  by_cases hlog : m.log2 + 1 = 53
  · rw [if_pos hlog]
    exact if_pos hlog
  · rw [if_neg hlog]
    exact if_neg hlog

/-- A number whose leading digit is in the usual place is not changed by packing it. -/
theorem unpack_pack_normal {m : Nat} {e : Int} (hm : 0 < m) (hfirst : 2 ^ 52 ≤ m)
    (hlast : m < 2 ^ 53) (hlow : -1074 ≤ e) (he : e ≤ 971) :
    unpack .binary64 (pack .binary64 (.finite .positive m e hm)) = .finite .positive m e hm := by
  have hlog : m.log2 + 1 = 53 := by
    rw [(Nat.log2_eq_iff (Nat.ne_of_gt hm)).mpr ⟨hfirst, hlast⟩]
  have hrest : 2 ^ 52 + (BitVec.ofNat 52 m).toNat = m := by
    rw [BitVec.toNat_ofNat]
    omega
  rw [pack_finite hm he, if_pos hlog, unpack_normal _ (by omega) (by omega),
    UnpackedFloat.finite.injEq]
  exact ⟨rfl, hrest, by omega⟩

/-- Packing keeps a number below its bound. -/
theorem within_pack (h : Within t u) (ht : t ≤ 900) :
    Within t (unpack .binary64 (pack .binary64 u)) := by
  match u, h with
  | .zero .positive, _ | .zero .negative, _ => trivial
  | .finite .positive m e hm, h =>
    have hsize : e ≤ t := by
      have hone : (1 : ℚ) ≤ m := by exact_mod_cast hm
      have hpow : (2 : ℚ) ^ e ≤ 2 ^ (t : Int) := by
        rw [zpow_natCast]
        exact (le_mul_of_one_le_left (zpow_pos two_pos e).le hone).trans h
      exact (zpow_le_zpow_iff_right₀ one_lt_two).mp hpow
    have he : e ≤ 971 := by omega
    by_cases hlog : m.log2 + 1 = 53
    · obtain ⟨hfirst, hlast⟩ := (Nat.log2_eq_iff (Nat.ne_of_gt hm)).mp (Nat.succ.inj hlog)
      by_cases hlow : -1074 ≤ e
      · rw [unpack_pack_normal hm hfirst hlast hlow he]
        exact h
      · have hbiased : (e + 1023 + 52).toNat = 0 := by omega
        rw [pack_finite hm he, if_pos hlog, hbiased]
        exact within_subnormal _
    · rw [pack_finite hm he, if_neg hlog]
      exact within_subnormal _

/-! ## Whole parts -/

theorem roundToInt_positive (m : Nat) (e : Int) :
    roundToInt .positive m e = (m * 2 ^ e.toNat / 2 ^ (-e).toNat : Nat) := by
  have hleft : (e - 0).toNat = e.toNat := by rw [sub_zero]
  have hright : (0 - (e - (e - 0).toNat)).toNat = (-e).toNat := by omega
  show ((ExtendedMantissa.ofMantissaAndAccuracy (m <<< (e - 0).toNat) .exact >>>
    (0 - (e - (e - 0).toNat)).toNat).mantissa : Int) = _
  rw [(shifted _ _).mantissa_eq, hright, hleft, Nat.shiftLeft_eq]

/-- A number lies between its whole part and the next one. -/
theorem whole_bounds (m : Nat) (e : Int) :
    ((m * 2 ^ e.toNat / 2 ^ (-e).toNat : Nat) : ℚ) ≤ m * 2 ^ e ∧
      (m : ℚ) * 2 ^ e < (m * 2 ^ e.toNat / 2 ^ (-e).toNat : Nat) + 1 := by
  have hpos : (0 : ℚ) < 2 ^ (-e).toNat := pow_pos two_pos _
  have hscaled : (m : ℚ) * 2 ^ e * 2 ^ (-e).toNat = (m * 2 ^ e.toNat : Nat) := by
    rw [Nat.cast_mul, Nat.cast_pow, Nat.cast_two, mul_assoc, ← zpow_natCast, ← zpow_natCast,
      ← zpow_add₀ two_ne_zero]
    congr 2
    omega
  have hfloor := Nat.div_mul_le_self (m * 2 ^ e.toNat) (2 ^ (-e).toNat)
  have hnext := (Nat.div_lt_iff_lt_mul (Nat.two_pow_pos (-e).toNat)).mp
    (Nat.lt_succ_self (m * 2 ^ e.toNat / 2 ^ (-e).toNat))
  constructor
  · refine le_of_mul_le_mul_right ?_ hpos
    rw [hscaled]
    exact_mod_cast hfloor
  · refine lt_of_mul_lt_mul_right ?_ hpos.le
    rw [hscaled]
    exact_mod_cast hnext

theorem toNat_clamp_le (n : Nat) : (UInt64.ofNatClamp n).toNat ≤ n := by
  by_cases hn : n < UInt64.size
  · exact Nat.le_of_eq (UInt64.toNat_ofNatClamp_of_lt hn)
  · rw [UInt64.toNat_ofNatClamp_of_le (Nat.le_of_not_lt hn)]
    omega

/-- The whole part of a number is at most its bound. -/
theorem toUInt64_le (h : Within t u) : u.toUInt64.toNat ≤ 2 ^ t := by
  match u, h with
  | .zero _, _ => exact Nat.zero_le _
  | .finite .positive m e hm, h =>
    have hwhole : (m * 2 ^ e.toNat / 2 ^ (-e).toNat : Nat) ≤ 2 ^ t := by
      exact_mod_cast (whole_bounds m e).1.trans h
    refine (toNat_clamp_le _).trans ?_
    show (roundToInt .positive m e).toNat ≤ 2 ^ t
    rw [roundToInt_positive]
    exact hwhole

/-- A number is bounded if its whole part is. -/
theorem within_of_toUInt64_lt (hfinite : u.isFinite = true)
    (hsign : (UnpackedFloat.zero .positive).le u = true) (hwhole : u.toUInt64.toNat < 2 ^ t)
    (ht : t < 64) : Within t u := by
  match u with
  | .zero _ => trivial
  | .finite .positive m e hm =>
    have hlt : 2 ^ t < UInt64.size := Nat.pow_lt_pow_right (by decide) ht
    have hbelow : m * 2 ^ e.toNat / 2 ^ (-e).toNat < 2 ^ t := by
      change (UInt64.ofNatClamp (roundToInt .positive m e).toNat).toNat < 2 ^ t at hwhole
      rw [roundToInt_positive, Int.toNat_natCast] at hwhole
      by_contra hle
      by_cases hn : m * 2 ^ e.toNat / 2 ^ (-e).toNat < UInt64.size
      · rw [UInt64.toNat_ofNatClamp_of_lt hn] at hwhole
        exact hle hwhole
      · rw [UInt64.toNat_ofNatClamp_of_le (Nat.le_of_not_lt hn)] at hwhole
        omega
    have hnext : ((m * 2 ^ e.toNat / 2 ^ (-e).toNat : Nat) : ℚ) + 1 ≤ 2 ^ t := by
      exact_mod_cast hbelow
    exact (whole_bounds m e).2.le.trans hnext

end

/-! ## Draws -/

section

variable {t : Nat} {x y : Float}

theorem within_mul {i j : Nat} (hx : Within i x.toModel.unpack) (hy : Within j y.toModel.unpack)
    (hij : i + j ≤ 900) : Within (i + j) (x * y).toModel.unpack := by
  refine within_pack ?_ hij
  show Within (i + j) (UnpackedFloat.mul .binary64 x.toModel.unpack y.toModel.unpack)
  match x.toModel.unpack, y.toModel.unpack, hx, hy with
  | .zero _, .zero _, _, _ => trivial
  | .zero _, .finite .positive .., _, _ => trivial
  | .finite .positive .., .zero _, _, _ => trivial
  | .finite .positive m e _, .finite .positive n f _, hx, hy =>
    refine within_rounded ?_
    have hn : (0 : ℚ) ≤ n * 2 ^ f := mul_nonneg n.cast_nonneg (zpow_pos two_pos f).le
    calc ((m * n : Nat) : ℚ) * 2 ^ (e + f)
      _ = m * 2 ^ e * (n * 2 ^ f) := by
        rw [Nat.cast_mul, zpow_add₀ two_ne_zero]
        ring
      _ ≤ 2 ^ i * 2 ^ j := mul_le_mul hx hy hn (pow_pos two_pos i).le
      _ = 2 ^ (i + j) := (pow_add 2 i j).symm

/-- The bits of a fraction are those of a number from one up to two. -/
theorem unpack_fraction (w : UInt64) : ∃ (v : BitVec 52) (h : 0 < 2 ^ 52 + v.toNat),
    (Float.ofBits ((w >>> 12) ||| 0x3FF0000000000000)).toModel.unpack =
      .finite .positive (2 ^ 52 + v.toNat) (-52) h := by
  have hbits : ((w >>> 12) ||| 0x3FF0000000000000).toBitVec =
      packComponents .binary64 .positive (BitVec.ofNat 11 1023)
        ((w.toBitVec >>> 12).truncate 52) := by
    show w.toBitVec >>> 12 ||| 0x3FF0000000000000#64 =
      (0#1 ++ 1023#11 ++ (w.toBitVec >>> 12).truncate 52 : BitVec 64)
    have hlt : w.toBitVec.toNat >>> 12 < 2 ^ 52 := by
      have hw := w.toBitVec.isLt
      rw [Nat.shiftRight_eq_div_pow]
      omega
    refine BitVec.eq_of_toNat_eq ?_
    rw [BitVec.toNat_or, BitVec.toNat_ushiftRight, BitVec.toNat_append, BitVec.toNat_setWidth,
      BitVec.toNat_ushiftRight, Nat.mod_eq_of_lt hlt, Nat.or_comm]
    rfl
  refine ⟨(w.toBitVec >>> 12).truncate 52, by omega, ?_⟩
  show unpack .binary64 (pack .binary64 (unpack .binary64 _)) = _
  rw [hbits, unpack_normal _ (by decide) (by decide)]
  exact unpack_pack_normal _ (by omega) (by omega) (by decide) (by decide)

theorem sub_aligned {m n : Nat} {e : Int} (hm : 0 < m) (hn : 0 < n) :
    UnpackedFloat.sub .binary64 (.finite .positive m e hm) (.finite .positive n e hn) =
      UnpackedFloat.normalize .binary64 ((m : Int) - n) e .positive := by
  have hshift : (e - min e e).toNat = 0 := by omega
  show UnpackedFloat.normalize .binary64 (((m <<< (e - min e e).toNat : Nat) : Int) -
    (n <<< (e - min e e).toNat : Nat)) (min e e) .positive = _
  rw [hshift, min_self]
  rfl

/-- A fraction is at most one. -/
theorem within_fraction (w : UInt64) :
    Within 0 (Float.ofBits ((w >>> 12) ||| 0x3FF0000000000000) - 1.0).toModel.unpack := by
  obtain ⟨v, hpos, hx⟩ := unpack_fraction w
  have hone : (1.0 : Float).toModel.unpack = .finite .positive (2 ^ 52) (-52) (by decide) := rfl
  refine within_pack ?_ (by decide)
  show Within 0 (UnpackedFloat.sub .binary64 _ _)
  rw [hx, hone, sub_aligned, Nat.cast_add, add_sub_cancel_left]
  rcases Nat.eq_zero_or_pos v.toNat with hzero | hsome
  · rw [hzero]
    trivial
  · have hcompare : compare (v.toNat : Int) 0 = .gt := Int.compare_eq_gt.mpr (by omega)
    have hv : (v.toNat : ℚ) ≤ 2 ^ 52 := by exact_mod_cast v.isLt.le
    unfold UnpackedFloat.normalize
    rw [hcompare]
    refine within_round ?_
    calc (v.toNat : ℚ) * 2 ^ (-52 : Int)
      _ ≤ 2 ^ 52 * 2 ^ (-52 : Int) := mul_le_mul_of_nonneg_right hv (zpow_pos two_pos _).le
      _ = 2 ^ 0 := by
        rw [← zpow_natCast, ← zpow_add₀ two_ne_zero]
        rfl

/-- Every number that is drawn is bounded by what bounds the width of the range. -/
theorem within_upToFloat? {high : Float} (hhigh : 0.0 ≤ high)
    (hfinite : (high / Source.largestFraction).isFinite = true)
    (hwidth : Within t
      (Source.fitScale high 8 (high / Source.largestFraction)).toModel.unpack)
    (ht : t ≤ 900) (s : Source) :
    ∃ x s', s.upToFloat? high = some (x, s') ∧ Within t x.toModel.unpack := by
  refine ⟨_, _, if_pos (Bool.and_eq_true_iff.mpr ⟨decide_eq_true hhigh, hfinite⟩), ?_⟩
  have hproduct := within_mul (within_fraction s.word64.1) hwidth (by omega)
  rw [Nat.zero_add] at hproduct
  exact hproduct

end

end ListMode.Random
