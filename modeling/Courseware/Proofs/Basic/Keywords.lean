import Courseware.Basic.Scanning
import Courseware.Proofs.Expr.Spacing
import Courseware.Proofs.Machine.Composition
import Courseware.Proofs.Text.Trimming
import Mathlib.Algebra.Group.Nat.Even

/-!
Keywords in the middle of a statement.

A statement is cut at a keyword where that is a whole word outside double quotes. White space
stands before such a keyword and no keyword reaches across it, so a part without the keyword whose
quotes are closed is cut off as it was written, but for the white space at its ends. An expression
does not mind that.
-/

namespace Courseware

open Text

/-- Texts that differ in the white space at their ends have the same value. -/
lemma Exec.evaluate_congr {t u : Text} (h : trim t = trim u) :
    Exec.evaluate t = Exec.evaluate u := by
  funext env m
  unfold Exec.evaluate
  rw [← Expr.evaluate_trim, h, Expr.evaluate_trim]

namespace Basic

variable {k w s r t : Text} {quoted boundary : Bool} {c x : Char}

/-! ### Keywords in a text -/

/-- The keyword is a word of the text, in small letters or capitals: it stands outside double
quotes, and no character of a word stands before or behind it. -/
def HasWord (k t : Text) : Prop :=
  ∃ s w r, t = s ++ (w ++ r) ∧ sameWord w k = true ∧ Even (s.count '"') ∧
    s.getLast?.any isWordChar = false ∧ r.head?.any isWordChar = false

/-- The same of a text that begins inside double quotes or not, and where a word may begin or
not. -/
def HasWordFrom (quoted boundary : Bool) (k t : Text) : Prop :=
  ∃ s w r, t = s ++ (w ++ r) ∧ sameWord w k = true ∧ Even (quoted.toNat + s.count '"') ∧
    (s.getLast?.map (!isWordChar ·)).getD boundary = true ∧ r.head?.any isWordChar = false

lemma hasWord_iff : HasWord k t ↔ HasWordFrom false true k t := by
  have hlast : ∀ s : Text, s.getLast?.any isWordChar = false ↔
      (s.getLast?.map (!isWordChar ·)).getD true = true := by
    intro s
    cases s.getLast? <;> simp
  simp only [HasWord, HasWordFrom, hlast, Bool.toNat_false, Nat.zero_add]

lemma stripKeyword?_eq_some_iff :
    stripKeyword? k t = some r ↔
      ∃ w, t = w ++ r ∧ sameWord w k = true ∧ r.head?.any isWordChar = false := by
  constructor
  · intro h
    unfold stripKeyword? at h
    split at h
    · next hk =>
      cases h
      rw [Bool.and_eq_true, Bool.not_eq_true'] at hk
      exact ⟨t.take k.length, (List.take_append_drop _ _).symm, hk⟩
    · cases h
  · rintro ⟨w, rfl, hw, hr⟩
    have hlength : w.length = k.length := by
      simpa [upper] using congrArg List.length (beq_iff_eq.1 hw)
    simp [stripKeyword?, ← hlength, hw, hr]

lemma even_count_cons (quoted : Bool) (c : Char) (s : Text) :
    Even (quoted.toNat + (c :: s).count '"') ↔
      Even ((quoted ^^ (c == '"')).toNat + s.count '"') := by
  by_cases hc : c = '"'
  · subst hc
    cases quoted <;> simp [Nat.even_add, Nat.even_add_one]
  · have hplain : (c == '"') = false := beq_eq_false_iff_ne.2 hc
    rw [List.count_cons_of_ne hc, hplain, Bool.xor_false]

lemma eq_false_of_even (h : Even (quoted.toNat + ([] : Text).count '"')) : quoted = false := by
  cases quoted
  · rfl
  · exact absurd h (by decide)

/-- A word of a text stands at its beginning or behind its first character. -/
lemma hasWordFrom_cons :
    HasWordFrom quoted boundary k (c :: t) ↔
      (quoted = false ∧ boundary = true ∧ ∃ r, stripKeyword? k (c :: t) = some r) ∨
      HasWordFrom (quoted ^^ (c == '"')) (!isWordChar c) k t := by
  have hlast : ∀ s : Text, ((c :: s).getLast?.map (!isWordChar ·)).getD boundary =
      (s.getLast?.map (!isWordChar ·)).getD (!isWordChar c) := by
    intro s
    rw [List.getLast?_cons]
    cases s.getLast? <;> rfl
  constructor
  · rintro ⟨s, w, r, ht, hw, heven, hbefore, hr⟩
    cases s with
    | nil =>
      exact .inl ⟨eq_false_of_even heven, hbefore, r, stripKeyword?_eq_some_iff.2 ⟨w, ht, hw, hr⟩⟩
    | cons d s =>
      obtain ⟨rfl, rfl⟩ := List.cons_eq_cons.1 ht
      rw [even_count_cons] at heven
      rw [hlast] at hbefore
      exact .inr ⟨s, w, r, rfl, hw, heven, hbefore, hr⟩
  · rintro (⟨rfl, rfl, r, hstrip⟩ | ⟨s, w, r, rfl, hw, heven, hbefore, hr⟩)
    · obtain ⟨w, ht, hw, hr⟩ := stripKeyword?_eq_some_iff.1 hstrip
      exact ⟨[], w, r, ht, hw, by simp, rfl, hr⟩
    · rw [← even_count_cons] at heven
      rw [← hlast] at hbefore
      exact ⟨c :: s, w, r, rfl, hw, heven, hbefore, hr⟩

/-! ### Cutting a text at a keyword -/

lemma ne_nil_of_sameWord (hk : isName k = true) (hw : sameWord w k = true) : w ≠ [] := by
  rintro rfl
  have hupper : upper [] = upper k := beq_iff_eq.1 hw
  rw [List.map_eq_nil_iff.1 hupper.symm] at hk
  cases hk

/-- A keyword begins with a letter. -/
lemma stripKeyword?_of_not_start (hk : isName k = true) (hc : isNameStart c = false) (t : Text) :
    stripKeyword? k (c :: t) = none := by
  cases hstrip : stripKeyword? k (c :: t) with
  | none => rfl
  | some r =>
    obtain ⟨w, ht, hw, -⟩ := stripKeyword?_eq_some_iff.1 hstrip
    have hupper : upper w = upper k := beq_iff_eq.1 hw
    rw [isName, Bool.and_eq_true] at hk
    cases k with
    | nil => cases hk.1
    | cons d k =>
      cases w with
      | nil => cases hupper
      | cons e w =>
        obtain ⟨rfl, -⟩ := List.cons_eq_cons.1 ht
        -- the first letter of the text is that of the keyword but for the case
        have hletter : c.toUpper = d.toUpper := (List.cons_eq_cons.1 hupper).1
        have hd : isNameStart d = true := hk.1
        rw [← isNameStart_toUpper, hletter, isNameStart_toUpper, hd] at hc
        cases hc

lemma ne_quote_of_stripKeyword? (hk : isName k = true) (h : stripKeyword? k (c :: t) = some r) :
    c ≠ '"' := by
  rintro rfl
  rw [stripKeyword?_of_not_start hk (by decide)] at h
  cases h

/-- A character at which no keyword is found. -/
lemma cutKeyword?_skip
    (h : quoted = false → boundary = true → c ≠ '"' → stripKeyword? k (c :: t) = none) :
    cutKeyword? k quoted boundary (c :: t) =
      (cutKeyword? k (quoted ^^ (c == '"')) (!isWordChar c) t).map fun x => (c :: x.1, x.2) := by
  rw [cutKeyword?]
  dsimp only
  cases quoted with
  -- between quotes nothing is looked for
  | true => rw [if_pos rfl, Bool.true_xor, bne]
  | false =>
    rw [if_neg Bool.false_ne_true]
    by_cases hc : c = '"'
    · subst hc
      rfl
    · have hnone : (if boundary = true then stripKeyword? k (c :: t) else none) = none := by
        split
        · next hb => exact h rfl hb hc
        · rfl
      have hplain : (c == '"') = false := beq_eq_false_iff_ne.2 hc
      rw [if_neg hc, hnone, hplain, Bool.xor_false]

/-- A character at which a keyword is found. -/
lemma cutKeyword?_found (hc : c ≠ '"') (h : stripKeyword? k (c :: t) = some r) :
    cutKeyword? k false true (c :: t) = some ([], r) := by
  rw [cutKeyword?]
  simp [hc, h]

lemma cutKeyword?_eq_none_iff (hk : isName k = true) :
    cutKeyword? k quoted boundary t = none ↔ ¬ HasWordFrom quoted boundary k t := by
  induction t generalizing quoted boundary with
  | nil =>
    refine iff_of_true rfl ?_
    rintro ⟨s, w, r, ht, hw, -⟩
    obtain ⟨rfl, hwr⟩ := List.append_eq_nil_iff.1 ht.symm
    exact ne_nil_of_sameWord hk hw (List.append_eq_nil_iff.1 hwr).1
  | cons c t ih =>
    rw [hasWordFrom_cons, not_or, ← ih]
    -- the keyword is here, or it is looked for behind the character
    by_cases hfound : quoted = false ∧ boundary = true ∧ ∃ r, stripKeyword? k (c :: t) = some r
    · obtain ⟨rfl, rfl, r, hr⟩ := hfound
      have hcut := cutKeyword?_found (ne_quote_of_stripKeyword? hk hr) hr
      simp [hcut, hr]
    · have hskip : quoted = false → boundary = true → c ≠ '"' →
          stripKeyword? k (c :: t) = none := by
        intro hq hb _
        cases hr : stripKeyword? k (c :: t) with
        | none => rfl
        | some r => exact absurd ⟨hq, hb, r, hr⟩ hfound
      rw [cutKeyword?_skip hskip, Option.map_eq_none_iff]
      simp [hfound]

/-- **A text is cut at a keyword if and only if the keyword is a word of it.** -/
theorem atKeyword?_eq_none_iff (hk : isName k = true) :
    atKeyword? k t = none ↔ ¬ HasWord k t := by
  rw [hasWord_iff]
  exact cutKeyword?_eq_none_iff hk

lemma isWordChar_of_isBlank (hx : isBlank x = true) : isWordChar x = false := by
  have hdollar : x ≠ '$' := by
    rintro rfl
    exact absurd hx (by decide)
  simp [isWordChar, isNameChar_of_isBlank hx, hdollar]

/-- White space behind a text hides no word of it. -/
lemma HasWord.append_blanks {b : Text} (h : HasWord k t) (hb : b.all isBlank = true) :
    HasWord k (t ++ b) := by
  obtain ⟨s, w, r, rfl, hw, heven, hs, hr⟩ := h
  refine ⟨s, w, r ++ b, by simp, hw, heven, hs, ?_⟩
  cases r with
  | cons c r => exact hr
  | nil =>
    cases b with
    | nil => rfl
    | cons x b =>
      rw [List.all_cons, Bool.and_eq_true] at hb
      exact isWordChar_of_isBlank hb.1

/-- A keyword does not reach across white space. -/
lemma stripKeyword?_append_blank (hk : isName k = true) (hx : isBlank x = true) (s t : Text) :
    stripKeyword? k (s ++ x :: t) = (stripKeyword? k s).map (· ++ x :: t) := by
  have hhead : ∀ a : Text, (a ++ x :: t).head?.any isWordChar = a.head?.any isWordChar := by
    intro a
    cases a <;> simp [isWordChar_of_isBlank hx]
  cases hs : stripKeyword? k s with
  | some r =>
    obtain ⟨w, rfl, hw, hr⟩ := stripKeyword?_eq_some_iff.1 hs
    refine stripKeyword?_eq_some_iff.2 ⟨w, List.append_assoc w r _, hw, ?_⟩
    rw [hhead, hr]
  | none =>
    cases ht : stripKeyword? k (s ++ x :: t) with
    | none => rfl
    | some r =>
      exfalso
      obtain ⟨w, hsplit, hw, hr⟩ := stripKeyword?_eq_some_iff.1 ht
      have hupper : upper w = upper k := beq_iff_eq.1 hw
      have hplain : ∀ d ∈ k, isBlank d = false := by
        intro d hd
        rw [isName, Bool.and_eq_true, List.all_eq_true] at hk
        by_contra hblank
        have hname := hk.2 d hd
        rw [isNameChar_of_isBlank (by simpa using hblank)] at hname
        cases hname
      have hmem : x ∉ w := by
        intro hxw
        rw [not_blank_of_upper hupper hplain x hxw] at hx
        cases hx
      -- the keyword ends within `s`
      obtain ⟨a, rfl, rfl⟩ : ∃ a, s = w ++ a ∧ r = a ++ x :: t := by
        rcases List.append_eq_append_iff.1 hsplit with ⟨a, rfl, ha⟩ | ⟨a, rfl, ha⟩
        · cases a with
          | nil => exact ⟨[], by simp, ha.symm⟩
          | cons d a =>
            obtain ⟨rfl, -⟩ := List.cons_eq_cons.1 ha
            exact absurd (by simp) hmem
        · exact ⟨a, rfl, ha⟩
      rw [hhead] at hr
      rw [stripKeyword?_eq_some_iff.2 ⟨w, rfl, hw, hr⟩] at hs
      cases hs

/-- White space neither begins a keyword nor continues a word. -/
lemma cutKeyword?_blank (hk : isName k = true) (hx : isBlank x = true) (t : Text) :
    cutKeyword? k false boundary (x :: t) =
      (cutKeyword? k false true t).map fun y => (x :: y.1, y.2) := by
  have hstart : isNameStart x = false := by
    by_contra h
    rw [(of_isNameStart (by simpa using h)).1] at hx
    cases hx
  have hquote : (x == '"') = false := by
    rw [beq_eq_false_iff_ne]
    rintro rfl
    exact absurd hx (by decide)
  rw [cutKeyword?_skip fun _ _ _ => stripKeyword?_of_not_start hk hstart t, hquote,
    isWordChar_of_isBlank hx]
  rfl

/-- A text that begins with the keyword. -/
lemma cutKeyword?_word (hk : isName k = true) (hw : sameWord w k = true)
    (hr : r.head?.any isWordChar = false) : cutKeyword? k false true (w ++ r) = some ([], r) := by
  have hstrip : stripKeyword? k (w ++ r) = some r :=
    stripKeyword?_eq_some_iff.2 ⟨w, rfl, hw, hr⟩
  obtain ⟨d, w, rfl⟩ := List.exists_cons_of_ne_nil (ne_nil_of_sameWord hk hw)
  exact cutKeyword?_found (ne_quote_of_stripKeyword? hk hstrip) hstrip

/-- A text without the keyword, whose quotes are closed, is what is cut off before the keyword. -/
lemma cutKeyword?_append (hk : isName k = true) (hx : isBlank x = true)
    (hnone : cutKeyword? k quoted boundary s = none) (heven : Even (quoted.toNat + s.count '"'))
    (hw : sameWord w k = true) (hr : r.head?.any isWordChar = false) :
    cutKeyword? k quoted boundary (s ++ x :: (w ++ r)) = some (s ++ [x], r) := by
  induction s generalizing quoted boundary with
  | nil =>
    rw [eq_false_of_even heven, List.nil_append, cutKeyword?_blank hk hx, cutKeyword?_word hk hw hr]
    rfl
  | cons c s ih =>
    have hskip : quoted = false → boundary = true → c ≠ '"' → stripKeyword? k (c :: s) = none := by
      rintro rfl rfl hc
      cases hfound : stripKeyword? k (c :: s) with
      | none => rfl
      | some u =>
        rw [cutKeyword?_found hc hfound] at hnone
        cases hnone
    -- what follows does not make a keyword of a text that ends with white space
    have hskip' : quoted = false → boundary = true → c ≠ '"' →
        stripKeyword? k (c :: (s ++ x :: (w ++ r))) = none := by
      intro hq hb hc
      rw [← List.cons_append, stripKeyword?_append_blank hk hx, hskip hq hb hc]
      rfl
    rw [cutKeyword?_skip hskip, Option.map_eq_none_iff] at hnone
    rw [List.cons_append, cutKeyword?_skip hskip', ih hnone (even_count_cons .. |>.1 heven)]
    rfl

/-- White space at the beginning belongs to what is cut off. -/
lemma atKeyword?_trimStart (hk : isName k = true) (t : Text) :
    atKeyword? k (trimStart t) = (atKeyword? k t).map fun y => (trimStart y.1, y.2) := by
  unfold atKeyword?
  induction t with
  | nil => rfl
  | cons c t ih =>
    by_cases hc : isBlank c = true
    · rw [trimStart_cons_of_blank hc, ih, cutKeyword?_blank hk hc, Option.map_map]
      refine congrArg (Option.map · _) (funext fun y => ?_)
      rw [Function.comp_apply, trimStart_cons_of_blank hc]
    · have hc : isBlank c = false := by simpa using hc
      rw [trimStart_cons_of_not_blank hc]
      by_cases hfound : c ≠ '"' ∧ ∃ r, stripKeyword? k (c :: t) = some r
      · obtain ⟨hquote, r, hr⟩ := hfound
        rw [cutKeyword?_found hquote hr]
        rfl
      · have hskip : stripKeyword? k (c :: t) = none ∨ c = '"' := by
          rcases hr : stripKeyword? k (c :: t) with _ | r
          · exact .inl rfl
          · exact .inr (not_not.1 fun hquote => hfound ⟨hquote, r, hr⟩)
        rw [cutKeyword?_skip fun _ _ hquote => hskip.resolve_right hquote, Option.map_map]
        refine congrArg (Option.map · _) (funext fun y => ?_)
        rw [Function.comp_apply, trimStart_cons_of_not_blank hc]

/-- A keyword between white space. -/
lemma atKeyword?_append (hk : isName k = true) (hs : ¬ HasWord k s) (heven : Even (s.count '"'))
    (hw : sameWord w k = true) (r : Text) :
    atKeyword? k (' ' :: (s ++ ' ' :: (w ++ ' ' :: r))) = some (' ' :: (s ++ [' ']), ' ' :: r) := by
  have hnone : cutKeyword? k false true s = none := (atKeyword?_eq_none_iff hk).2 hs
  have hcut := cutKeyword?_append (r := ' ' :: r) hk (by decide : isBlank ' ' = true) hnone
    (by simpa using heven) hw (isWordChar_of_isBlank (by decide : isBlank ' ' = true))
  rw [atKeyword?, cutKeyword?_blank hk (by decide), hcut]
  rfl

/-- The white space that is left around a part that is cut off. -/
lemma trim_padded (t : Text) : trim (trimStart (' ' :: (t ++ [' ']))) = trim t := by
  have hblank : trim (' ' :: (t ++ [' '])) = trim (t ++ [' ']) :=
    trim_blank_append (b := [' ']) rfl _
  rw [trim_trimStart, hblank, trim_append_blank (by decide)]

end Basic

end Courseware
