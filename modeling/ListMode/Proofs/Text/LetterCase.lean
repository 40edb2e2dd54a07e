import Mathlib.Data.List.Forall2
import ListMode.Log

/-!
# Names in any letter case

A text spells a name if each of its characters is that of the name or the capital of it. Of names
that consist of the small letters of ASCII, this is what lower-casing by ASCII finds. Lower-casing
by Unicode finds the same: of all other characters, only the sign of the kelvin becomes such a
letter, and the names of the levels have no k.
-/

namespace ListMode

namespace Text

/-- `s` is `name` with some of its letters as capitals. -/
def Spells (s name : String) : Prop :=
  List.Forall₂ (fun c d => c = d ∨ c = d.toUpper) s.toList name.toList

/-! ## By ASCII -/

theorem toNat_toLower (c : Char) :
    c.toLower.toNat = if 65 ≤ c.toNat ∧ c.toNat ≤ 90 then c.toNat + 32 else c.toNat := by
  unfold Char.toLower
  by_cases h : c.val ≥ 'A'.val ∧ c.val ≤ 'Z'.val
  · have hn : 65 ≤ c.toNat ∧ c.toNat ≤ 90 := h
    rw [dif_pos h, if_pos hn]
    show (c.val + 32).toNat = _
    rw [UInt32.toNat_add]
    show (c.toNat + 32) % 4294967296 = _
    omega
  · have hn : ¬(65 ≤ c.toNat ∧ c.toNat ≤ 90) := h
    rw [dif_neg h, if_neg hn]

theorem toNat_toUpper (c : Char) :
    c.toUpper.toNat = if 97 ≤ c.toNat ∧ c.toNat ≤ 122 then c.toNat - 32 else c.toNat := by
  unfold Char.toUpper
  by_cases h : c.val ≥ 'a'.val ∧ c.val ≤ 'z'.val
  · have hn : 97 ≤ c.toNat ∧ c.toNat ≤ 122 := h
    rw [dif_pos h, if_pos hn]
    -- the difference of the two letters is added modulo the size of a word
    show (c.val + 4294967264).toNat = _
    rw [UInt32.toNat_add]
    show (c.toNat + 4294967264) % 4294967296 = _
    omega
  · have hn : ¬(97 ≤ c.toNat ∧ c.toNat ≤ 122) := h
    rw [dif_neg h, if_neg hn]

theorem toNat_of_isLower {d : Char} (hd : d.isLower = true) : 97 ≤ d.toNat ∧ d.toNat ≤ 122 := by
  obtain ⟨hfirst, hlast⟩ := Bool.and_eq_true_iff.mp hd
  exact ⟨of_decide_eq_true hfirst, of_decide_eq_true hlast⟩

/-- A small letter or its capital, by number. -/
theorem eq_or_toUpper_iff {c d : Char} (hd : d.isLower = true) :
    c = d ∨ c = d.toUpper ↔ c.toNat = d.toNat ∨ c.toNat + 32 = d.toNat := by
  have hrange := toNat_of_isLower hd
  rw [← Char.toNat_inj, ← Char.toNat_inj, toNat_toUpper, if_pos hrange]
  omega

theorem toLower_eq_iff {c d : Char} (hd : d.isLower = true) :
    c.toLower = d ↔ c = d ∨ c = d.toUpper := by
  have hrange := toNat_of_isLower hd
  rw [eq_or_toUpper_iff hd, ← Char.toNat_inj, toNat_toLower]
  split <;> omega

theorem map_toLower_eq_iff {name : List Char} (hname : ∀ d ∈ name, d.isLower = true)
    (s : List Char) :
    s.map Char.toLower = name ↔ List.Forall₂ (fun c d => c = d ∨ c = d.toUpper) s name := by
  induction s generalizing name with
  | nil => simp [eq_comm]
  | cons c rest ih =>
    cases name with
    | nil => simp
    | cons d ds =>
      obtain ⟨hd, hds⟩ := List.forall_mem_cons.mp hname
      rw [List.map_cons, List.cons.injEq, List.forall₂_cons, toLower_eq_iff hd, ih hds]

/-! ## By Unicode -/

theorem lowerCode_small : ∀ n ∈ List.range' 97 26, lowerCode n = n := by decide +kernel

theorem lowerCode_capital : ∀ n ∈ List.range' 65 26, lowerCode n = n + 32 := by decide +kernel

/-- Apart from the capitals of ASCII and the sign of the kelvin, upper-case letters have lower-case
forms beyond ASCII. -/
theorem upperRuns_beyond : ∀ r ∈ upperRuns, r = (0x41, 0x5A, 32) ∨ r = (0x212A, 0x212A, -8383) ∨
    122 < (r.1 : Int) + r.2.2 := by decide +kernel

theorem alternatingRuns_beyond : ∀ r ∈ alternatingRuns, 122 < r.1 := by decide +kernel

theorem lowerCode_eq_iff {n m : Nat} (hm : 97 ≤ m ∧ m ≤ 122) (hk : m ≠ 107) :
    lowerCode n = m ↔ n = m ∨ n + 32 = m := by
  constructor
  · intro h
    unfold lowerCode at h
    split at h
    · rename_i first last shift hrun
      have hmem := upperRuns_beyond _ (List.mem_of_find?_eq_some hrun)
      have hin := List.find?_some hrun
      simp only [Bool.and_eq_true, decide_eq_true_eq] at hin
      rcases hmem with hcapital | hkelvin | hbeyond
      · obtain ⟨rfl, rfl, rfl⟩ : first = 0x41 ∧ last = 0x5A ∧ shift = 32 := by simpa using hcapital
        omega
      · obtain ⟨rfl, rfl, rfl⟩ : first = 0x212A ∧ last = 0x212A ∧ shift = -8383 := by
          simpa using hkelvin
        omega
      · dsimp only at hbeyond
        omega
    · split at h
      · rename_i hany
        obtain ⟨r, hr, hin⟩ := List.any_eq_true.mp hany
        have := alternatingRuns_beyond r hr
        simp only [Bool.and_eq_true, decide_eq_true_eq] at hin
        omega
      · exact .inl h
  · rintro (rfl | h)
    · exact lowerCode_small n (List.mem_range'_1.mpr (by omega))
    · rw [lowerCode_capital n (List.mem_range'_1.mpr (by omega)), h]

theorem ofNat_eq_iff {n : Nat} {d : Char} (hd : d.toNat ≠ 0) : Char.ofNat n = d ↔ n = d.toNat := by
  constructor
  · rintro rfl
    by_cases hvalid : n.isValidChar
    · have hchar : Char.ofNat n = Char.ofNatAux n hvalid := dif_pos hvalid
      rw [hchar]
      rfl
    · have hchar : Char.ofNat n = Char.ofNat 0 := dif_neg hvalid
      exact absurd (congrArg Char.toNat hchar) hd
  · rintro rfl
    exact Char.ofNat_toNat d

/-- A character whose lower-case form is a single one becomes a small letter if it is that letter or
its capital. -/
theorem ofNat_lowerCode_eq_iff {c d : Char} (hd : d.isLower = true) (hk : d ≠ 'k') :
    Char.ofNat (lowerCode c.toNat) = d ↔ c = d ∨ c = d.toUpper := by
  have hrange := toNat_of_isLower hd
  have hcode : d.toNat ≠ 107 := fun he => hk (Char.toNat_inj.mp he)
  rw [ofNat_eq_iff (by omega), lowerCode_eq_iff hrange hcode, eq_or_toUpper_iff hd]

/-- Small letters of ASCII other than k. -/
def Plain (name : List Char) : Prop := ∀ d ∈ name, d.isLower = true ∧ d ≠ 'k'

/-- A character has a lower-case form of one character, whatever stands around it, or it lies beyond
ASCII and so does a part of its form. -/
theorem lowerFrom_cons (before : List Char) (c : Char) (rest : List Char) :
    ∃ here, lowerFrom before (c :: rest) = here ++ lowerFrom (c :: before) rest ∧
      (here = [Char.ofNat (lowerCode c.toNat)] ∨
        122 < c.toNat ∧ ∃ x ∈ here, x.isLower = false) := by
  refine ⟨_, rfl, ?_⟩
  by_cases hsigma : c = 'Σ'
  · subst hsigma
    refine .inr ⟨by decide, ?_⟩
    rw [if_pos rfl]
    split
    · exact ⟨'ς', List.mem_singleton_self _, by decide⟩
    · exact ⟨'σ', List.mem_singleton_self _, by decide⟩
  · rw [if_neg hsigma]
    unfold lowerChar
    by_cases hdot : c.toNat = 0x130
    · rw [if_pos hdot]
      exact .inr ⟨by omega, '\u0307', by simp, by decide⟩
    · rw [if_neg hdot]
      exact .inl rfl

/-- Lower-casing finds a name exactly in the texts that spell it. -/
theorem lowerFrom_eq_iff {name : List Char} (hname : Plain name) (before s : List Char) :
    lowerFrom before s = name ↔
      List.Forall₂ (fun c d => c = d ∨ c = d.toUpper) s name := by
  induction s generalizing before name with
  | nil => simp [lowerFrom, eq_comm]
  | cons c rest ih =>
    obtain ⟨here, hlower, rfl | ⟨hbeyond, x, hx, hsmall⟩⟩ := lowerFrom_cons before c rest
    · rw [hlower, List.singleton_append]
      cases name with
      | nil => simp
      | cons d ds =>
        obtain ⟨⟨hd, hk⟩, hds⟩ := List.forall_mem_cons.mp hname
        rw [List.cons.injEq, List.forall₂_cons, ofNat_lowerCode_eq_iff hd hk, ih hds]
    · rw [hlower]
      constructor
      · rintro rfl
        have hplain := (hname x (List.mem_append_left _ hx)).1
        rw [hsmall] at hplain
        nomatch hplain
      · intro hspells
        obtain ⟨d, ds, hcd, -, rfl⟩ := List.forall₂_cons_left_iff.mp hspells
        obtain ⟨⟨hd, -⟩, -⟩ := List.forall_mem_cons.mp hname
        have hrange := toNat_of_isLower hd
        have hnat := (eq_or_toUpper_iff hd).mp hcd
        omega

end Text

/-! ## Names of levels -/

namespace Log.Level

theorem plain_name (l : Level) : Text.Plain l.name.toList := by
  have hall : (l.name.toList.all fun d => d.isLower && d != 'k') = true := by
    cases l <;> decide
  intro d hd
  simpa using List.all_eq_true.mp hall d hd

theorem toLower_eq_name_iff (s : String) (l : Level) :
    s.toLower = l.name ↔ Text.Spells s l.name := by
  rw [← String.toList_inj]
  show (s.map Char.toLower).toList = l.name.toList ↔ _
  rw [String.toList_map]
  exact Text.map_toLower_eq_iff (fun d hd => (l.plain_name d hd).1) s.toList

/-- By the rules of Unicode, the same texts name a level. -/
theorem lower_eq_name_iff (s : String) (l : Level) :
    Text.lower s = l.name ↔ Text.Spells s l.name := by
  rw [← String.toList_inj, Text.lower, String.toList_ofList]
  exact Text.lowerFrom_eq_iff l.plain_name [] s.toList

theorem ofName?_isNone_iff (s : String) :
    (ofName? s).isNone = true ↔ ¬∃ l : Level, Text.Spells s l.name := by
  have hall : ∀ l : Level, l ∈ all := by
    intro l
    cases l <;> decide
  rw [ofName?, Option.isNone_iff_eq_none, List.find?_eq_none, not_exists]
  constructor
  · intro h l hl
    exact h l (hall l) (decide_eq_true ((toLower_eq_name_iff s l).mpr hl).symm)
  · intro h l _ hname
    exact h l ((toLower_eq_name_iff s l).mp (of_decide_eq_true hname).symm)

end Log.Level

end ListMode
