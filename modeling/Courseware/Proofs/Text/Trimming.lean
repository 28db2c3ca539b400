import Courseware.Proofs.Text.Names
import Courseware.Text.Literal

/-!
Texts that trimming leaves alone, and what it does to texts that are put together from such.
-/

namespace Courseware.Text

variable {b s t w : Text} {c d q : Char}

/-- The text is not empty, and has something else than white space at both ends. -/
structure Solid (t : Text) : Prop where
  ne_nil : t ≠ []
  head (c : Char) : t.head? = some c → isBlank c = false
  last (c : Char) : t.getLast? = some c → isBlank c = false

lemma solid_of_not_blank (hne : t ≠ []) (ht : ∀ c ∈ t, isBlank c = false) : Solid t where
  ne_nil := hne
  head c hc := ht c (List.mem_of_head? hc)
  last c hc := ht c (List.mem_of_getLast? hc)

lemma solid_of_ends (hc : isBlank c = false) (hd : isBlank d = false) (t : Text) :
    Solid (c :: (t ++ [d])) where
  ne_nil := List.cons_ne_nil _ _
  head x hx := by
    cases hx
    exact hc
  last x hx := by
    have hlast : (c :: (t ++ [d])).getLast? = some d := List.getLast?_concat (l := c :: t)
    rw [hlast] at hx
    cases hx
    exact hd

/-- Whatever stands between two such texts. -/
lemma Solid.append (hs : Solid s) (ht : Solid t) (r : Text) : Solid (s ++ (r ++ t)) where
  ne_nil := by simp [hs.ne_nil]
  head c hc := by
    rw [List.head?_append_of_ne_nil _ hs.ne_nil] at hc
    exact hs.head c hc
  last c hc := by
    rw [List.getLast?_append_of_ne_nil _ (by simp [ht.ne_nil]),
      List.getLast?_append_of_ne_nil _ ht.ne_nil] at hc
    exact ht.last c hc

lemma solid_join {sep : Text} {ts : List Text} (hne : ts ≠ []) (hts : ∀ t ∈ ts, Solid t) :
    Solid (join sep ts) := by
  induction ts with
  | nil => exact absurd rfl hne
  | cons t ts ih =>
    rw [List.forall_mem_cons] at hts
    cases ts with
    | nil => exact hts.1
    | cons u us =>
      have happend := hts.1.append (ih (List.cons_ne_nil _ _) hts.2) sep
      rwa [← List.append_assoc] at happend

/-- White space before such a text is removed by trimming, and nothing else. -/
lemma Solid.trim_append (ht : Solid t) (hb : b.all isBlank = true) : trim (b ++ t) = t := by
  have hstart : trimStart (b ++ t) = t := (takeWhile_append_of_all hb ht.head).2
  have hend : t.reverse.dropWhile isBlank = t.reverse := by
    have hlast : ∀ c, t.reverse.head? = some c → isBlank c = false := by
      intro c hc
      rw [List.head?_reverse] at hc
      exact ht.last c hc
    exact (takeWhile_append_of_all (t := []) rfl hlast).2
  rw [trim, hstart, trimEnd, hend, List.reverse_reverse]

lemma Solid.trim_eq (ht : Solid t) : trim t = t := ht.trim_append (b := []) rfl

lemma trim_of_ends (hc : isBlank c = false) (hd : isBlank d = false) (t : Text) :
    trim (c :: (t ++ [d])) = c :: (t ++ [d]) := (solid_of_ends hc hd t).trim_eq

/-- White space before a text does not matter to trimming. -/
lemma trim_blank_append (hb : b.all isBlank = true) (t : Text) : trim (b ++ t) = trim t := by
  rw [trim, trimStart, List.dropWhile_append_of_pos (List.all_eq_true.1 hb)]
  rfl

lemma trim_trimStart (t : Text) : trim (trimStart t) = trim t :=
  congrArg trimEnd (List.dropWhile_idempotent isBlank t)

lemma exists_blanks_trimEnd (t : Text) : ∃ b, b.all isBlank = true ∧ trimEnd t ++ b = t := by
  refine ⟨(t.reverse.takeWhile isBlank).reverse, ?_, ?_⟩
  · rw [List.all_reverse]
    exact List.all_takeWhile
  · rw [trimEnd, ← List.reverse_append, List.takeWhile_append_dropWhile, List.reverse_reverse]

/-- Trimming takes white space from both ends, and nothing else. -/
lemma exists_blanks_trim (t : Text) :
    ∃ b b', b.all isBlank = true ∧ b'.all isBlank = true ∧ b ++ (trim t ++ b') = t := by
  obtain ⟨b', hb', hend⟩ := exists_blanks_trimEnd (trimStart t)
  refine ⟨t.takeWhile isBlank, b', List.all_takeWhile, hb', ?_⟩
  rw [trim, hend]
  exact List.takeWhile_append_dropWhile

/-- Nor does white space behind it. -/
lemma trim_append_blank (hb : b.all isBlank = true) (t : Text) : trim (t ++ b) = trim t := by
  have hend : trimEnd (t ++ b) = trimEnd t := by
    have hall : ∀ c ∈ b.reverse, isBlank c = true := fun c hc =>
      List.all_eq_true.1 hb c (List.mem_reverse.1 hc)
    rw [trimEnd, List.reverse_append, List.dropWhile_append_of_pos hall]
    rfl
  rw [← trim_trimEnd, hend, trim_trimEnd]

/-- Where something else than white space follows, only that is trimmed at the end. -/
lemma trimEnd_append (ht : isBlankText t = false) (s : Text) :
    trimEnd (s ++ t) = s ++ trimEnd t := by
  have hne : ¬ trimEnd t = [] := by
    intro hnil
    have hall := List.dropWhile_eq_nil_iff.1 (List.reverse_eq_nil_iff.1 hnil)
    have hblank : isBlankText t = true :=
      List.all_eq_true.2 fun c hc => hall c (List.mem_reverse.2 hc)
    rw [ht] at hblank
    cases hblank
  induction s with
  | nil => rfl
  | cons c s ih =>
    have hrest : ¬ (trimEnd (s ++ t) = [] ∧ isBlank c = true) := by simp [ih, hne]
    rw [List.cons_append, trimEnd_cons, if_neg hrest, ih, List.cons_append]

/-- Behind a word, only the end of the text is trimmed. -/
lemma trim_append_of_not_blank (hne : w ≠ []) (hw : ∀ c ∈ w, isBlank c = false) (t : Text) :
    trim (w ++ t) = w ++ trimEnd t := by
  have hend : trimEnd (w ++ t) = w ++ trimEnd t := by
    clear hne
    induction w with
    | nil => rfl
    | cons c w ih =>
      rw [List.forall_mem_cons] at hw
      rw [List.cons_append, trimEnd_cons_of_not_blank hw.1, ih hw.2, List.cons_append]
  obtain ⟨c, r, rfl⟩ := List.exists_cons_of_ne_nil hne
  have hstart : trimStart (c :: r ++ t) = c :: r ++ t :=
    trimStart_cons_of_not_blank (hw c List.mem_cons_self)
  rw [trim, hstart, hend]

lemma trimEnd_prefix_self (t : Text) : trimEnd t <+: t := List.rdropWhile_prefix isBlank t

lemma EndsName.trimEnd (h : EndsName t) : EndsName (trimEnd t) := by
  intro c hc
  obtain ⟨r, hr⟩ := trimEnd_prefix_self t
  refine h c ?_
  rw [← hr, List.head?_append, hc]
  rfl

/-! ### Texts in quotes -/

lemma eq_or_of_isQuote (h : isQuote q = true) : q = '"' ∨ q = '\'' := by
  simpa [isQuote] using h

lemma isBlank_of_isQuote (h : isQuote q = true) : isBlank q = false := by
  rcases eq_or_of_isQuote h with rfl | rfl <;> rfl

/-- A text in quotes is a literal, if its quotes are not in it. -/
lemma quoted?_of_not_mem (hq : isQuote q = true) (ht : q ∉ t) :
    quoted? (q :: (t ++ [q])) = some t := by
  have hblank := isBlank_of_isQuote hq
  rw [quoted?, trim_of_ends hblank hblank]
  dsimp only
  rw [if_pos hq, cut?_append ht]

/-- A quote that is not closed makes no literal. -/
lemma quoted?_of_unclosed (hq : isQuote q = true) (ht : q ∉ t) : quoted? (q :: t) = none := by
  have hblank := isBlank_of_isQuote hq
  rw [quoted?, trim, trimStart_cons_of_not_blank hblank, trimEnd_cons_of_not_blank hblank]
  dsimp only
  rw [if_pos hq, cut?_of_not_mem fun h => ht ((trimEnd_prefix_self t).mem h)]

end Courseware.Text
