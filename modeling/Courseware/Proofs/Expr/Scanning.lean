import Courseware.Expr.Token
import Courseware.Proofs.Number.Numerals

/-!
The tokens of texts that are put together from numerals, names and symbols.

Whether an operand is due is all that matters of what stands before. The limit on tokens only
decides whether the tokens are given, not which.
-/

namespace Courseware.Expr.Token

open Text Number

variable {vars : Variables} {due : Bool} {toks : List Token} {c : Char} {r rest : Text}

/-- The tokens of a text; `due` tells whether an operand is due where it begins. -/
inductive Reads (vars : Variables) : Bool → Text → List Token → Prop where
  | nil {due : Bool} : Reads vars due [] []
  | blank {due : Bool} {c : Char} {r : Text} {toks : List Token} (hc : isBlank c = true)
      (h : Reads vars due r toks) : Reads vars due (c :: r) toks
  | token {due : Bool} {c : Char} {r rest : Text} {tok : Token} {toks : List Token}
      (hc : isBlank c = false) (hread : read vars due c r = .ok (tok, rest))
      (h : Reads vars (expectsOperand (some tok)) rest toks) :
      Reads vars due (c :: r) (tok :: toks)

/-- The limit decides whether there are too many tokens. -/
theorem scan_of_reads {limits : Limits} {count : Nat} {t : Text} (prev : Option Token)
    (h : Reads vars (expectsOperand prev) t toks) (hcount : count ≤ limits.maxTokens) :
    scan vars limits prev count t =
      if count + toks.length ≤ limits.maxTokens then .ok toks
      else .error (.tooManyTokens limits.maxTokens) := by
  generalize hdue : expectsOperand prev = due at h
  induction h generalizing prev count with
  | nil =>
    have hfits : count + ([] : List Token).length ≤ limits.maxTokens := hcount
    rw [scan, if_pos hfits]
  | blank hc h ih =>
    rw [scan, if_pos hc]
    exact ih prev hcount hdue
  | @token due c r rest tok toks hc hread h ih =>
    subst hdue
    rw [scan, if_neg (by simp [hc])]
    split
    · next e he =>
      rw [hread] at he
      cases he
    · next tok' rest' htok =>
      rw [hread] at htok
      cases htok
      -- the limit is checked for every token, and the first one too many ends the scan
      by_cases hfull : limits.maxTokens < count + 1
      · rw [if_pos hfull, if_neg (by simp only [List.length_cons]; omega)]
      · have hsize : count + 1 + toks.length = count + (tok :: toks).length := by
          rw [List.length_cons]
          omega
        rw [if_neg hfull, ih (some tok) (Nat.le_of_not_lt hfull) rfl, hsize]
        by_cases hfits : count + (tok :: toks).length ≤ limits.maxTokens
        · rw [if_pos hfits, if_pos hfits]
        · rw [if_neg hfits, if_neg hfits]

lemma tokenize_of_reads {t : Text} (h : Reads vars true t toks) (limits : Limits) :
    tokenize vars limits t =
      if toks.length ≤ limits.maxTokens then .ok toks
      else .error (.tooManyTokens limits.maxTokens) := by
  have hscan := scan_of_reads none h (Nat.zero_le limits.maxTokens)
  rw [Nat.zero_add] at hscan
  exact hscan

lemma Reads.blanks {b : Text} (hb : b.all isBlank = true) (h : Reads vars due r toks) :
    Reads vars due (b ++ r) toks := by
  induction b with
  | nil => exact h
  | cons c b ih =>
    rw [List.all_cons, Bool.and_eq_true] at hb
    exact .blank hb.1 (ih hb.2)

/-! ### Numerals -/

/-- What follows does not continue a whole numeral. -/
def EndsNumeral (rest : Text) : Prop :=
  ∀ c, rest.head? = some c → isDigit c = false ∧ c ≠ '.' ∧ c ≠ 'e' ∧ c ≠ 'E'

lemma endsNumeral_nil : EndsNumeral [] := by
  intro c hc
  cases hc

lemma readNumeral_append {ds : Text} (hds : ds.all isDigit = true) (hrest : EndsNumeral rest) :
    readNumeral (ds ++ rest) = (numeralValue ds [] [], rest) := by
  obtain ⟨htake, hdrop⟩ := takeWhile_append_of_all hds fun c hc => (hrest c hc).1
  have hfraction : splitFraction rest = ([], rest) := by
    unfold splitFraction
    split
    · next r => exact absurd rfl (hrest '.' rfl).2.1
    · rfl
  have hexponent : splitExponent rest = ([], rest) := by
    unfold splitExponent
    split
    · rfl
    · next e r =>
      obtain ⟨-, -, he, hE⟩ := hrest e rfl
      exact if_neg fun h => h.1.elim he hE
  unfold readNumeral
  simp only [htake, hdrop, hfraction, hexponent]

lemma Reads.numeral {ds : Text} (hne : ds ≠ []) (hds : ds.all isDigit = true)
    (hrest : EndsNumeral rest) (h : Reads vars false rest toks) :
    Reads vars due (ds ++ rest) (.literal (numeralValue ds [] []) :: toks) := by
  have hread := readNumeral_append hds hrest
  cases ds with
  | nil => exact absurd rfl hne
  | cons c ds =>
    have hc : isDigit c = true := by
      rw [List.all_cons, Bool.and_eq_true] at hds
      exact hds.1
    rw [List.cons_append] at hread ⊢
    refine .token (isBlank_of_isDigit hc) ?_ h
    unfold read
    rw [if_pos (by simp [startsNumeral, hc]), hread]

lemma numeralValue_of_word {ds : Text} {n : Int64} (h : word? (digitsValue ds) = some n) :
    numeralValue ds [] [] = .integer n := by
  simp only [numeralValue, List.append_nil, if_true, h]

/-- A numeral that does not fit 64 bits is a float. -/
lemma numeralValue_of_no_word {ds : Text} (h : word? (digitsValue ds) = none) :
    numeralValue ds [] [] = .float ((readUnsigned? ds).getD nan) := by
  simp only [numeralValue, List.append_nil, if_true, h]

/-- A whole number of 64 bits. -/
lemma Reads.decimal {k : Nat} {n : Int64} (hn : word? k = some n) (hrest : EndsNumeral rest)
    (h : Reads vars false rest toks) :
    Reads vars due (Number.decimal k ++ rest) (.literal (.integer n) :: toks) := by
  obtain ⟨hdigits, hvalue⟩ := decimal_digits k
  rw [← numeralValue_of_word (n := n) (by rw [hvalue]; exact hn)]
  exact .numeral (decimal_ne_nil _) hdigits hrest h

/-! ### Words and symbols -/

/-- A name at the beginning of a text, which may end in a dollar sign. -/
lemma Reads.splitName {w : Text} (hc : isNameStart c = true)
    (hsplit : Text.splitName (c :: r) = (w, rest))
    (h : Reads vars (expectsOperand (some (ofWord w rest))) rest toks) :
    Reads vars due (c :: r) (ofWord w rest :: toks) := by
  obtain ⟨hblank, hdigit, hpoint, hdouble, hsingle⟩ := of_isNameStart hc
  refine .token hblank ?_ h
  unfold read
  rw [if_neg (by simp [startsNumeral, hdigit, hpoint]), if_neg (by simp [hdouble, hsingle]),
    if_pos hc, hsplit]

lemma Reads.word {w : Text} (hw : isName w = true) (hrest : EndsName rest)
    (h : Reads vars (expectsOperand (some (ofWord w rest))) rest toks) :
    Reads vars due (w ++ rest) (ofWord w rest :: toks) := by
  rw [isName, Bool.and_eq_true] at hw
  have hsplit := splitName_append hw.2 hrest
  cases w with
  | nil => cases hw.1
  | cons c w => exact .splitName hw.1 hsplit h

/-- A text in quotes. -/
lemma Reads.quoted {q : Char} {t : Text} (hq : isQuote q = true) (ht : q ∉ t)
    (h : Reads vars false rest toks) :
    Reads vars due (q :: (t ++ q :: rest)) (.literal (.text t) :: toks) := by
  have hcut := cut?_append ht rest
  have hq' := eq_or_of_isQuote hq
  have hblank : isBlank q = false ∧ startsNumeral q (t ++ q :: rest) = false := by
    rcases hq' with rfl | rfl <;> exact ⟨rfl, rfl⟩
  refine .token hblank.1 ?_ h
  unfold read
  rw [if_neg (by simp [hblank.2]), if_pos hq', hcut]

/-- A quote that is not closed ends the scan. -/
lemma tokenize_of_unclosed {q : Char} {t : Text} (hq : isQuote q = true) (ht : q ∉ t)
    (limits : Limits) : tokenize vars limits (q :: t) = .error (.malformed .unterminatedText) := by
  have hq' := eq_or_of_isQuote hq
  have hnumeral : startsNumeral q t = false := by
    rcases hq' with rfl | rfl <;> rfl
  have hread : read vars true q t = .error (.malformed .unterminatedText) := by
    unfold read
    rw [if_neg (by simp [hnumeral]), if_pos hq', cut?_of_not_mem ht]
  rw [tokenize, scan, if_neg (by simp [isBlank_of_isQuote hq])]
  split
  · next e he =>
    cases hread.symm.trans he
    rfl
  · next tok rest hok => cases hread.symm.trans hok

lemma Reads.sign (h : Reads vars true r toks) :
    Reads vars true ('-' :: r) (.operator (.unary .neg) :: toks) := by
  refine .token rfl ?_ h
  cases r <;> rfl

lemma Reads.openParen (h : Reads vars true r toks) :
    Reads vars due ('(' :: r) (.openParen :: toks) := by
  refine .token rfl ?_ h
  cases due <;> cases r <;> rfl

lemma Reads.closeParen (h : Reads vars false r toks) :
    Reads vars due (')' :: r) (.closeParen :: toks) := by
  refine .token rfl ?_ h
  cases due <;> cases r <;> rfl

/-- The operators on numbers, apart from division. -/
def arithmeticOps : List BinaryOp := [.add, .sub, .mul, .mod, .pow]

/-- An operator after an operand. The word `MOD` must not run into a name or a numeral. -/
lemma Reads.binary {o : BinaryOp} (ho : o ∈ arithmeticOps) (hr : o = .mod → EndsName r)
    (h : Reads vars true r toks) :
    Reads vars false (o.symbol.toList ++ r) (.operator (.binary o) :: toks) := by
  simp only [arithmeticOps, List.mem_cons, List.not_mem_nil, or_false] at ho
  rcases ho with rfl | rfl | rfl | rfl | rfl
  · refine .token rfl ?_ h
    cases r <;> rfl
  · refine .token rfl ?_ h
    cases r <;> rfl
  · refine .token rfl ?_ h
    cases r <;> rfl
  · exact Reads.word (w := "MOD".toList) rfl (hr rfl) h
  · refine .token rfl ?_ h
    cases r <;> rfl

/-- Words that are no operators. -/
lemma lookup_wordOperators {w : Text} (hand : w ≠ "AND".toList) (hor : w ≠ "OR".toList)
    (hmod : w ≠ "MOD".toList) : wordOperators.lookup w = none := by
  simp only [wordOperators, List.lookup_cons, List.lookup_nil, beq_eq_false_iff_ne.2 hand,
    beq_eq_false_iff_ne.2 hor, beq_eq_false_iff_ne.2 hmod]

end Courseware.Expr.Token
