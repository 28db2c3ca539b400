import Courseware.Number.Decimal
import Courseware.Proofs.Text.Words

/-!
Names: what they are made of, and where in a text they end.
-/

namespace Courseware.Text

variable {c : Char} {rest : Text}

lemma isBlank_of_isDigit (h : Number.isDigit c = true) : isBlank c = false := by
  simp only [Number.isDigit, Bool.and_eq_true, decide_eq_true_eq] at h
  simp only [isBlank, Bool.or_eq_false_iff, beq_eq_false_iff_ne, Bool.and_eq_false_iff,
    decide_eq_false_iff_not]
  omega

/-- Digits continue names but do not begin them. -/
lemma isNameChar_of_isDigit (h : Number.isDigit c = true) :
    isNameStart c = false ∧ isNameChar c = true := by
  simp only [Number.isDigit, Bool.and_eq_true, decide_eq_true_eq] at h
  obtain ⟨n, hn, rfl⟩ : ∃ n ∈ List.range' 48 10, c = Char.ofNat n :=
    ⟨c.toNat, by rw [List.mem_range'_1]; omega, (Char.ofNat_toNat c).symm⟩
  have hall : ∀ n ∈ List.range' 48 10,
      isNameStart (Char.ofNat n) = false ∧ isNameChar (Char.ofNat n) = true := by decide
  exact hall n hn

/-- A name is made of characters of names and begins with one that may begin it. -/
def isName (t : Text) : Bool := t.head?.any isNameStart && t.all isNameChar

/-- A name begins with neither a digit nor a point nor a quote nor white space. -/
lemma of_isNameStart (h : isNameStart c = true) :
    isBlank c = false ∧ Number.isDigit c = false ∧ c ≠ '.' ∧ c ≠ '"' ∧ c ≠ '\'' := by
  refine ⟨?_, ?_, ?_, ?_, ?_⟩
  · by_contra hb
    have hchar := isNameChar_of_isNameStart h
    rw [isNameChar_of_isBlank (by simpa using hb)] at hchar
    cases hchar
  · by_contra hd
    rw [(isNameChar_of_isDigit (by simpa using hd)).1] at h
    cases h
  all_goals
    rintro rfl
    revert h
    decide

lemma isNameStart_of_isLower (h : c.isLower = true) :
    isNameStart c = true ∧ isNameStart c.toUpper = true := by
  obtain ⟨hlo, hhi⟩ := isLower_iff.1 h
  obtain ⟨n, hn, rfl⟩ : ∃ n ∈ List.range' 97 26, c = Char.ofNat n :=
    ⟨c.toNat, by rw [List.mem_range'_1]; omega, (Char.ofNat_toNat c).symm⟩
  have hall : ∀ n ∈ List.range' 97 26,
      isNameStart (Char.ofNat n) = true ∧ isNameStart (Char.ofNat n).toUpper = true := by decide
  exact hall n hn

lemma isNameStart_toUpper (c : Char) : isNameStart c.toUpper = isNameStart c := by
  by_cases hlower : c.isLower = true
  · obtain ⟨hc, hup⟩ := isNameStart_of_isLower hlower
    rw [hc, hup]
  · rw [toUpper_of_not_isLower hlower]

lemma isNameChar_toUpper (c : Char) : isNameChar c.toUpper = isNameChar c := by
  by_cases hlower : c.isLower = true
  · obtain ⟨hc, hup⟩ := isNameStart_of_isLower hlower
    rw [isNameChar_of_isNameStart hc, isNameChar_of_isNameStart hup]
  · rw [toUpper_of_not_isLower hlower]

/-- A name in capitals is a name. -/
lemma isName_upper {n : Text} (h : isName n = true) : isName (upper n) = true := by
  rw [isName, Bool.and_eq_true, List.all_eq_true] at h ⊢
  cases n with
  | nil => cases h.1
  | cons c n =>
    refine ⟨(isNameStart_toUpper c).trans h.1, fun d hd => ?_⟩
    obtain ⟨e, he, rfl⟩ := List.mem_map.1 hd
    exact (isNameChar_toUpper e).trans (h.2 e he)

/-! ### Where a name ends -/

lemma takeWhile_append_of_all {p : Char → Bool} {t : Text} (ht : t.all p = true)
    (hr : ∀ c, rest.head? = some c → p c = false) :
    (t ++ rest).takeWhile p = t ∧ (t ++ rest).dropWhile p = rest := by
  have hall := List.all_eq_true.1 ht
  rw [List.takeWhile_append_of_pos hall, List.dropWhile_append_of_pos hall]
  cases rest with
  | nil => simp
  | cons c r =>
    have hc := hr c rfl
    simp [hc]

/-- What follows does not continue a name. -/
def EndsName (rest : Text) : Prop := ∀ c, rest.head? = some c → isNameChar c = false ∧ c ≠ '$'

lemma splitName_append {w : Text} (hw : w.all isNameChar = true) (hrest : EndsName rest) :
    splitName (w ++ rest) = (w, rest) := by
  obtain ⟨htake, hdrop⟩ := takeWhile_append_of_all hw fun c hc => (hrest c hc).1
  unfold splitName
  rw [htake, hdrop]
  split
  · next r => exact absurd rfl (hrest '$' rfl).2
  · rfl

lemma cut?_append_of_not_mem {t : Text} (h : c ∉ t) (r : Text) :
    cut? c (t ++ r) = (cut? c r).map fun x => (t ++ x.1, x.2) := by
  induction t with
  | nil => simp
  | cons d t ih =>
    rw [List.mem_cons, not_or] at h
    rw [List.cons_append, cut?, if_neg (Ne.symm h.1), ih h.2, Option.map_map]
    rfl

lemma cut?_of_not_mem {t : Text} (h : c ∉ t) : cut? c t = none := by
  have hcut := cut?_append_of_not_mem h []
  rwa [List.append_nil] at hcut

/-- The first occurrence of a character that is not in `t`. -/
lemma cut?_append {t : Text} (h : c ∉ t) (r : Text) : cut? c (t ++ c :: r) = some (t, r) := by
  rw [cut?_append_of_not_mem h, cut?, if_pos rfl, Option.map_some, List.append_nil]

lemma eq_of_cut? {t s r : Text} (h : cut? c t = some (s, r)) : t = s ++ c :: r := by
  induction t generalizing s with
  | nil => cases h
  | cons d t ih =>
    rw [cut?] at h
    split at h
    · next hd =>
      cases h
      rw [hd]
      rfl
    · obtain ⟨⟨s', r'⟩, hc, he⟩ := Option.map_eq_some_iff.1 h
      cases he
      rw [ih hc]
      rfl

lemma not_mem_of_cut? {t s r : Text} (h : cut? c t = some (s, r)) : c ∉ s := by
  induction t generalizing s with
  | nil => cases h
  | cons d t ih =>
    rw [cut?] at h
    split at h
    · cases h
      exact List.not_mem_nil
    · next hd =>
      obtain ⟨⟨s', r'⟩, hc, he⟩ := Option.map_eq_some_iff.1 h
      cases he
      rw [List.mem_cons, not_or]
      exact ⟨Ne.symm hd, ih hc⟩

end Courseware.Text
