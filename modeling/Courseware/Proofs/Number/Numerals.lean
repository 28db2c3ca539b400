import Courseware.Proofs.Text.Trimming
import Courseware.Value

/-!
Whole numbers that are written out are read back.

A numeral is built from its last digit and read from its first, so the induction is on the number
without its last digit. The sign is told apart from the digits by its character alone.
-/

namespace Courseware

open Text

namespace Number

/-! ### Digits -/

lemma digit_spec {d : Nat} (h : d < 10) :
    isDigit (digit d) = true ∧ (digit d).toNat - 48 = d := by
  have hall : ∀ d < 10, isDigit (digit d) = true ∧ (digit d).toNat - 48 = d := by decide
  exact hall d h

/-- A numeral consists of digits, and has the value of the number. -/
theorem decimal_digits (n : Nat) :
    (decimal n).all isDigit = true ∧ digitsValue (decimal n) = n := by
  induction n using Nat.strongRecOn with
  | ind n ih =>
    by_cases h : n < 10
    · obtain ⟨hdigit, hd⟩ := digit_spec h
      rw [decimal_of_lt h]
      refine ⟨by simp [hdigit], ?_⟩
      simp only [digitsValue, List.foldl_cons, List.foldl_nil, hd]
      omega
    · obtain ⟨hdigits, hvalue⟩ := ih (n / 10) (by omega)
      obtain ⟨hdigit, hd⟩ := digit_spec (Nat.mod_lt n (by decide : 0 < 10))
      rw [decimal_of_ge h]
      refine ⟨by simp [hdigits, hdigit], ?_⟩
      unfold digitsValue at hvalue ⊢
      rw [List.foldl_append, hvalue, List.foldl_cons, List.foldl_nil, hd]
      omega

lemma readDigits?_decimal (n : Nat) : readDigits? (decimal n) = some n := by
  obtain ⟨hdigits, hvalue⟩ := decimal_digits n
  rw [readDigits?, if_pos ⟨decimal_ne_nil n, hdigits⟩, hvalue]

lemma isDigit_of_mem_decimal {n : Nat} {c : Char} (hc : c ∈ decimal n) : isDigit c = true :=
  List.all_eq_true.1 (decimal_digits n).1 c hc

/-! ### Signs -/

/-- A whole number is read back as it was written. -/
lemma readInt?_signedDecimal (n : Int) : readInt? (signedDecimal n) = some n := by
  have hread := readDigits?_decimal n.natAbs
  unfold signedDecimal
  by_cases hn : n < 0
  · have habs : -(n.natAbs : Int) = n := by omega
    rw [if_pos hn, readInt?, hread]
    change some (-(n.natAbs : Int)) = some n
    rw [habs]
  · have habs : Int.ofNat n.natAbs = n := Int.natAbs_of_nonneg (Int.not_lt.1 hn)
    rw [if_neg hn]
    unfold readInt?
    split
    · next t ht => exact absurd (isDigit_of_mem_decimal (ht ▸ List.mem_cons_self)) (by decide)
    · next t ht => exact absurd (isDigit_of_mem_decimal (ht ▸ List.mem_cons_self)) (by decide)
    · rw [hread, Option.map_some, habs]

lemma of_mem_signedDecimal {n : Int} {c : Char} (hc : c ∈ signedDecimal n) :
    c = '-' ∨ isDigit c = true := by
  unfold signedDecimal at hc
  split at hc
  · exact (List.mem_cons.1 hc).imp_right isDigit_of_mem_decimal
  · exact .inr (isDigit_of_mem_decimal hc)

lemma signedDecimal_ne_nil (n : Int) : signedDecimal n ≠ [] := by
  unfold signedDecimal
  split
  · exact List.cons_ne_nil _ _
  · exact decimal_ne_nil _

lemma solid_signedDecimal (n : Int) : Solid (signedDecimal n) := by
  refine solid_of_not_blank (signedDecimal_ne_nil n) fun c hc => ?_
  rcases of_mem_signedDecimal hc with rfl | hc
  · rfl
  · exact isBlank_of_isDigit hc

/-- The opposite of a number other than the least one. -/
lemma word?_neg {k : Int64} (h : k ≠ Int64.minValue) : word? (-k.toInt) = some (-k) := by
  have hmin : Int64.minValue.toInt = -9223372036854775808 := by decide
  have hmax : Int64.maxValue.toInt = 9223372036854775807 := by decide
  have hne : k.toInt ≠ Int64.minValue.toInt := fun he => h (Int64.toInt_inj.1 he)
  have hlo := k.minValue_le_toInt
  have hhi := k.toInt_le
  rw [word?, if_pos (by omega), Int64.ofInt_neg, Int64.ofInt_toInt]

end Number

namespace Value

/-! ### Printed numbers -/

/-- What is printed for a whole number is that number, whatever white space stands around it. -/
lemma readNumber?_of_trim {t : Text} {n : Int64} (ht : trim t = (integer n).display) :
    readNumber? t = some (integer n) := by
  have hword : (Number.readInt? (integer n).display).bind Number.word? = some n := by
    rw [display, Number.readInt?_signedDecimal, Option.bind_some, Number.word?_toInt]
  unfold readNumber?
  simp only [ht, hword]

lemma ofInput_of_trim {t : Text} {n : Int64} (ht : trim t = (integer n).display) :
    ofInput t = integer n := by
  rw [ofInput, readNumber?_of_trim ht, Option.getD_some]

lemma trim_display_integer {b b' : Text} (hb : b.all isBlank = true) (hb' : b'.all isBlank = true)
    (n : Int64) : trim (b ++ ((integer n).display ++ b')) = (integer n).display := by
  rw [trim_blank_append hb, trim_append_blank hb']
  exact (Number.solid_signedDecimal n.toInt).trim_eq

end Value

end Courseware
