import Courseware.Expr.Evaluation
import Courseware.Proofs.Text.Trimming

/-!
White space around an expression does not matter.

In front of a token it is passed over. Behind the last token there may be any amount of it, since
no token but a text in quotes has white space in it: each reader stops where it would stop at the
end of the text, and leaves the white space to the next.
-/

namespace Courseware

namespace Text

variable {b t : Text} {c : Char}

/-- What is taken by a test that fails on white space. -/
lemma span_append_blanks {p : Char → Bool} (hp : ∀ c, isBlank c = true → p c = false)
    (hb : b.all isBlank = true) (t : Text) :
    (t ++ b).takeWhile p = t.takeWhile p ∧ (t ++ b).dropWhile p = t.dropWhile p ++ b := by
  have hhead : ∀ c, b.head? = some c → p c = false := fun c hc =>
    hp c (List.all_eq_true.1 hb c (List.mem_of_head? hc))
  induction t with
  | nil => exact takeWhile_append_of_all (t := []) rfl hhead
  | cons c t ih =>
    by_cases hc : p c = true
    · simp [hc, ih]
    · simp [hc]

lemma not_mem_blanks (hc : isBlank c = false) (hb : b.all isBlank = true) : c ∉ b := by
  intro hmem
  rw [List.all_eq_true.1 hb c hmem] at hc
  cases hc

lemma cut?_append_blanks (hc : isBlank c = false) (hb : b.all isBlank = true) (t : Text) :
    cut? c (t ++ b) = (cut? c t).map fun x => (x.1, x.2 ++ b) := by
  induction t with
  | nil => exact cut?_of_not_mem (not_mem_blanks hc hb)
  | cons d t ih =>
    rw [List.cons_append, cut?, cut?]
    split
    · rfl
    · rw [ih, Option.map_map, Option.map_map]
      rfl

lemma splitName_append_blanks (hb : b.all isBlank = true) (t : Text) :
    splitName (t ++ b) = ((splitName t).1, (splitName t).2 ++ b) := by
  obtain ⟨htake, hdrop⟩ := span_append_blanks (fun _ => isNameChar_of_isBlank) hb t
  unfold splitName
  rw [htake, hdrop]
  cases t.dropWhile isNameChar with
  | nil =>
    rw [List.nil_append]
    split
    · next r =>
      exact absurd List.mem_cons_self (not_mem_blanks (by decide : isBlank '$' = false) hb)
    · rfl
  | cons d r =>
    rw [List.cons_append]
    by_cases hd : d = '$'
    · subst hd
      rfl
    · simp [hd]

lemma head?_trimStart_append_blanks (hb : b.all isBlank = true) (t : Text) :
    (trimStart (t ++ b)).head? = (trimStart t).head? := by
  induction t with
  | nil =>
    have hnil : trimStart b = [] := List.dropWhile_eq_nil_iff.2 (List.all_eq_true.1 hb)
    rw [List.nil_append, hnil]
    rfl
  | cons d t ih =>
    by_cases hd : isBlank d = true
    · rw [List.cons_append, trimStart_cons_of_blank hd, trimStart_cons_of_blank hd, ih]
    · have hd : isBlank d = false := by simpa using hd
      rw [List.cons_append, trimStart_cons_of_not_blank hd, trimStart_cons_of_not_blank hd]
      rfl

end Text

namespace Expr

open Text Number

variable {vars : Variables} {limits : Limits} {due : Bool} {b : Text}

namespace Token

/-! ### Tokens -/

lemma splitSign_append_blanks (hb : b.all isBlank = true) (t : Text) :
    splitSign (t ++ b) = ((splitSign t).1, (splitSign t).2 ++ b) := by
  cases t with
  | nil =>
    have hplus := not_mem_blanks (by decide : isBlank '+' = false) hb
    have hminus := not_mem_blanks (by decide : isBlank '-' = false) hb
    rw [List.nil_append]
    unfold splitSign
    split
    · exact absurd List.mem_cons_self hplus
    · exact absurd List.mem_cons_self hminus
    · rfl
  | cons c r =>
    by_cases hplus : c = '+'
    · subst hplus
      rfl
    · by_cases hminus : c = '-'
      · subst hminus
        rfl
      · simp [splitSign, hplus, hminus]

lemma isDigit_of_isBlank {c : Char} (hc : isBlank c = true) : isDigit c = false := by
  by_contra hd
  rw [isBlank_of_isDigit (by simpa using hd)] at hc
  cases hc

lemma splitExponent_append_blanks (hb : b.all isBlank = true) (t : Text) :
    splitExponent (t ++ b) = ((splitExponent t).1, (splitExponent t).2 ++ b) := by
  cases t with
  | nil =>
    rw [List.nil_append]
    unfold splitExponent
    split
    · rfl
    · next e r =>
      have he := not_mem_blanks (by decide : isBlank 'e' = false) hb
      have hE := not_mem_blanks (by decide : isBlank 'E' = false) hb
      refine if_neg fun h => ?_
      rcases h.1 with rfl | rfl
      · exact he List.mem_cons_self
      · exact hE List.mem_cons_self
  | cons e r =>
    obtain ⟨htake, hdrop⟩ :=
      span_append_blanks (fun _ => isDigit_of_isBlank) hb (splitSign r).2
    rw [List.cons_append, splitExponent, splitExponent]
    simp only [splitSign_append_blanks hb, htake, hdrop]
    split <;> rfl

lemma splitFraction_append_blanks (hb : b.all isBlank = true) (t : Text) :
    splitFraction (t ++ b) = ((splitFraction t).1, (splitFraction t).2 ++ b) := by
  cases t with
  | nil =>
    have hpoint := not_mem_blanks (by decide : isBlank '.' = false) hb
    rw [List.nil_append]
    unfold splitFraction
    split
    · exact absurd List.mem_cons_self hpoint
    · rfl
  | cons c r =>
    by_cases hpoint : c = '.'
    · subst hpoint
      obtain ⟨htake, hdrop⟩ := span_append_blanks (fun _ => isDigit_of_isBlank) hb r
      simp [splitFraction, htake, hdrop]
    · simp [splitFraction, hpoint]

lemma readNumeral_append_blanks (hb : b.all isBlank = true) (t : Text) :
    readNumeral (t ++ b) = ((readNumeral t).1, (readNumeral t).2 ++ b) := by
  obtain ⟨htake, hdrop⟩ := span_append_blanks (fun _ => isDigit_of_isBlank) hb t
  simp only [readNumeral, htake, hdrop, splitFraction_append_blanks hb,
    splitExponent_append_blanks hb]

lemma startsNumeral_append_blanks (hb : b.all isBlank = true) (c : Char) (r : Text) :
    startsNumeral c (r ++ b) = startsNumeral c r := by
  cases r with
  | nil =>
    cases b with
    | nil => rfl
    | cons d b =>
      rw [List.all_cons, Bool.and_eq_true] at hb
      simp [startsNumeral, isDigit_of_isBlank hb.1]
  | cons d r => rfl

lemma ofWord_append_blanks (hb : b.all isBlank = true) (w rest : Text) :
    ofWord w (rest ++ b) = ofWord w rest := by
  simp only [ofWord, head?_trimStart_append_blanks hb]

/-- The token with what follows it, when white space follows that. -/
def spaced (b : Text) (x : Token × Text) : Token × Text := (x.1, x.2 ++ b)

lemma readReference_append_blanks (hb : b.all isBlank = true) (t : Text) :
    readReference vars (t ++ b) = (readReference vars t).map (spaced b) := by
  unfold readReference
  rw [cut?_append_blanks (by decide) hb]
  cases cut? '*' t with
  | none => rfl
  | some x =>
    rw [Option.map_some]
    dsimp only
    split
    · cases vars.value? x.1 <;> rfl
    · rfl

/-- A character of a kind that no symbol ends with. -/
lemma lookup_pairSymbols_eq_none {p : Char → Bool} (hp : ∀ x ∈ pairSymbols, p x.1.2 = false)
    {c d : Char} (hd : p d = true) : pairSymbols.lookup (c, d) = none := by
  cases h : pairSymbols.lookup (c, d) with
  | none => rfl
  | some o =>
    obtain ⟨l, r, hsymbols, -⟩ := List.lookup_eq_some_iff.1 h
    rw [hp ((c, d), o) (by rw [hsymbols]; simp)] at hd
    cases hd

/-- The operator of two characters that begins with `c`. -/
lemma pair_append_blanks (hb : b.all isBlank = true) (c : Char) (r : Text) :
    (r ++ b).head?.bind (fun d => pairSymbols.lookup (c, d)) =
      r.head?.bind fun d => pairSymbols.lookup (c, d) := by
  cases r with
  | nil =>
    cases b with
    | nil => rfl
    | cons d b =>
      rw [List.all_cons, Bool.and_eq_true] at hb
      exact lookup_pairSymbols_eq_none (by decide) hb.1
  | cons d r => rfl

lemma readSymbol_append_blanks (hb : b.all isBlank = true) (c : Char) (r : Text) :
    readSymbol due c (r ++ b) = (readSymbol due c r).map (spaced b) := by
  unfold readSymbol
  rw [pair_append_blanks hb]
  cases hr : r.head?.bind fun d => pairSymbols.lookup (c, d) with
  | some o =>
    cases r with
    | nil => cases hr
    | cons d r => rfl
  | none =>
    dsimp only
    split
    · rfl
    · split
      · rfl
      · cases singleSymbols.lookup c <;> rfl

/-- Every token is read as it is without the white space, which is left over. -/
lemma read_append_blanks (hb : b.all isBlank = true) (c : Char) (r : Text) :
    read vars due c (r ++ b) = (read vars due c r).map (spaced b) := by
  unfold read
  rw [startsNumeral_append_blanks hb, ← List.cons_append, readNumeral_append_blanks hb,
    splitName_append_blanks hb, readReference_append_blanks hb, readSymbol_append_blanks hb]
  dsimp only
  rw [ofWord_append_blanks hb]
  split
  · rfl
  · split
    · next hquote =>
      have hc : isBlank c = false := by rcases hquote with rfl | rfl <;> rfl
      rw [cut?_append_blanks hc hb]
      cases cut? c r <;> rfl
    · split
      · rfl
      · split <;> rfl

lemma scan_cons {c : Char} (hc : isBlank c = false) (prev : Option Token) (count : Nat)
    (r : Text) :
    scan vars limits prev count (c :: r) =
      (read vars (expectsOperand prev) c r).bind fun x =>
        if limits.maxTokens < count + 1 then .error (.tooManyTokens limits.maxTokens)
        else (scan vars limits (some x.1) (count + 1) x.2).map (x.1 :: ·) := by
  rw [scan, if_neg (by simp [hc])]
  split
  · next e he => rw [he]; rfl
  · next tok rest hok =>
    rw [hok]
    dsimp only [Except.bind]
    split
    · rfl
    · cases scan vars limits (some tok) (count + 1) rest <;> rfl

lemma scan_blanks (hb : b.all isBlank = true) (prev : Option Token) (count : Nat) (t : Text) :
    scan vars limits prev count (b ++ t) = scan vars limits prev count t := by
  induction b with
  | nil => rfl
  | cons c b ih =>
    rw [List.all_cons, Bool.and_eq_true] at hb
    rw [List.cons_append, scan, if_pos hb.1, ih hb.2]

lemma scan_append_blanks (hb : b.all isBlank = true) (prev : Option Token) (count : Nat)
    (t : Text) : scan vars limits prev count (t ++ b) = scan vars limits prev count t := by
  induction hlen : t.length using Nat.strongRecOn generalizing t prev count with
  | ind n ih =>
    subst hlen
    cases t with
    | nil =>
      have hscan : scan vars limits prev count (b ++ []) = scan vars limits prev count [] :=
        scan_blanks hb prev count []
      rwa [List.append_nil] at hscan
    | cons c r =>
      by_cases hc : isBlank c = true
      · rw [List.cons_append, scan, if_pos hc, scan, if_pos hc]
        exact ih r.length (by simp) prev count r rfl
      · have hc : isBlank c = false := by simpa using hc
        rw [List.cons_append, scan_cons hc, scan_cons hc, read_append_blanks hb]
        cases hread : read vars (expectsOperand prev) c r with
        | error e => rfl
        | ok x =>
          have hshort := length_read hread
          dsimp only [Except.map, Except.bind, spaced]
          rw [ih x.2.length (by rw [List.length_cons]; omega) _ _ _ rfl]

lemma tokenize_trim (t : Text) : tokenize vars limits (trim t) = tokenize vars limits t := by
  obtain ⟨b, b', hb, hb', ht⟩ := exists_blanks_trim t
  unfold tokenize
  conv_rhs => rw [← ht, scan_blanks hb, scan_append_blanks hb']

end Token

/-- **White space around an expression does not matter.** -/
theorem evaluate_trim (vars : Variables) (limits : Limits) (t : Text) :
    evaluate vars limits (trim t) = evaluate vars limits t := by
  unfold evaluate
  rw [Token.tokenize_trim]

end Expr

end Courseware
