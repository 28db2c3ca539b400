import Courseware.Text.Blank
import Mathlib.Data.List.DropRight
import Mathlib.Tactic.Lemma

/-!
The canonical form of a name is its own canonical form: trimming and raising letters do not
disturb each other, and neither does anything when it is done again.
-/

namespace Courseware.Text

lemma isBlank_eq_false {c : Char} (hlo : 65 ≤ c.toNat) (hhi : c.toNat ≤ 122) :
    isBlank c = false := by
  unfold isBlank
  simp only [Bool.or_eq_false_iff, Bool.and_eq_false_iff, beq_eq_false_iff_ne, ne_eq,
    decide_eq_false_iff_not]
  omega

/-- What the capital of a letter is. -/
lemma toNat_toUpper (c : Char) :
    c.toUpper.toNat = if c.isLower then c.toNat - 32 else c.toNat := by
  have hval : c.toNat = c.val.toNat := rfl
  delta Char.toUpper Char.isLower
  simp only [Bool.and_eq_true, decide_eq_true_eq, ge_iff_le]
  split
  · next h =>
    rw [UInt32.le_iff_toNat_le, UInt32.le_iff_toNat_le] at h
    change (c.val + _).toNat = _
    rw [UInt32.toNat_add]
    simp at h ⊢
    omega
  · rfl

lemma isLower_iff {c : Char} : c.isLower = true ↔ 97 ≤ c.toNat ∧ c.toNat ≤ 122 := by
  delta Char.isLower
  rw [Bool.and_eq_true, decide_eq_true_iff, decide_eq_true_iff]
  exact Iff.rfl

lemma toUpper_of_not_isLower {c : Char} (h : ¬ c.isLower = true) : c.toUpper = c :=
  Char.ext (UInt32.toNat_inj.1 ((toNat_toUpper c).trans (if_neg h)))

lemma isUpper_iff {c : Char} : c.isUpper = true ↔ 65 ≤ c.toNat ∧ c.toNat ≤ 90 := by
  delta Char.isUpper
  rw [decide_eq_true_iff]
  exact Iff.rfl

lemma not_isLower_toUpper (c : Char) : ¬ c.toUpper.isLower = true := by
  by_cases h : c.isLower = true
  · have hupper := toNat_toUpper c
    rw [if_pos h] at hupper
    rw [isLower_iff] at h ⊢
    omega
  · rwa [toUpper_of_not_isLower h]

lemma isAlpha_toUpper (c : Char) : c.toUpper.isAlpha = c.isAlpha := by
  by_cases h : c.isLower = true
  · have hupper : c.toUpper.isUpper = true := by
      rw [isUpper_iff, toNat_toUpper, if_pos h]
      have := isLower_iff.1 h
      omega
    delta Char.isAlpha
    rw [h, hupper, Bool.true_or, Bool.or_true]
  · rw [toUpper_of_not_isLower h]

lemma isBlank_toUpper (c : Char) : isBlank c.toUpper = isBlank c := by
  by_cases h : c.isLower = true
  · -- neither a small letter nor its capital is blank
    obtain ⟨hlo, hhi⟩ := isLower_iff.1 h
    have hup : c.toUpper.toNat = c.toNat - 32 := by rw [toNat_toUpper, if_pos h]
    rw [isBlank_eq_false (c := c) (by omega) hhi, isBlank_eq_false (by omega) (by omega)]
  · rw [toUpper_of_not_isLower h]

lemma upper_upper (t : Text) : upper (upper t) = upper t := by
  unfold upper
  rw [List.map_map]
  exact List.map_congr_left fun c _ => toUpper_of_not_isLower (not_isLower_toUpper c)

lemma trim_upper (t : Text) : trim (upper t) = upper (trim t) := by
  have hcomp : isBlank ∘ Char.toUpper = isBlank := funext isBlank_toUpper
  unfold trim trimEnd trimStart upper
  rw [List.dropWhile_map, hcomp, ← List.map_reverse, List.dropWhile_map, hcomp, List.map_reverse]

/-- Trimming at the end leaves the beginning alone. -/
lemma trimStart_trimEnd {t : Text} (h : trimStart t = t) : trimStart (trimEnd t) = trimEnd t := by
  have hpre : trimEnd t <+: t := List.rdropWhile_prefix isBlank t
  unfold trimStart at h ⊢
  rw [List.dropWhile_eq_self_iff] at h ⊢
  intro hpos
  have hlen : 0 < t.length := Nat.lt_of_lt_of_le hpos hpre.length_le
  rw [hpre.getElem hpos]
  exact h hlen

lemma trim_trim (t : Text) : trim (trim t) = trim t := by
  have hstart : trimStart (trimStart t) = trimStart t := List.dropWhile_idempotent isBlank t
  have hend : trimEnd (trimEnd (trimStart t)) = trimEnd (trimStart t) :=
    List.rdropWhile_idempotent isBlank _
  unfold trim
  rw [trimStart_trimEnd hstart, hend]

/-- **A canonical name is its own canonical form.** -/
theorem canonical_canonical (t : Text) : canonical (canonical t) = canonical t := by
  unfold canonical
  rw [trim_upper, trim_trim, upper_upper]

end Courseware.Text
