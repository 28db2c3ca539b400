import Courseware.Proofs.Expr.Spacing
import Courseware.Proofs.Text.Canonical

/-!
The case of letters in an expression without quotes does not matter.

Letters stand in names, in words, in references and as the mark of an exponent. Each reader takes
the same characters in either case and leaves the same, and what it makes of them is the same: a
word is raised when it becomes a token, the name of a reference when its variable is looked up, and
an exponent may be marked either way.
-/

namespace Courseware

namespace Text

variable {c d : Char} {t : Text}

lemma upper_cons (c : Char) (t : Text) : upper (c :: t) = c.toUpper :: upper t := rfl

lemma upper_append (s t : Text) : upper (s ++ t) = upper s ++ upper t := List.map_append

lemma upper_eq_nil_iff : upper t = [] ↔ t = [] := List.map_eq_nil_iff

lemma upper_eq_self (h : ∀ c ∈ t, c.toUpper = c) : upper t = t := by
  rw [upper, List.map_congr_left h, List.map_id']

lemma toUpper_of_not_alpha (h : c.isAlpha = false) : c.toUpper = c := by
  refine toUpper_of_not_isLower fun hlower => ?_
  delta Char.isAlpha at h
  simp [hlower] at h

/-- A character that is no letter is met in the same places. -/
lemma toUpper_eq_iff (hd : d.isAlpha = false) : c.toUpper = d ↔ c = d := by
  constructor
  · rintro rfl
    rw [isAlpha_toUpper] at hd
    exact (toUpper_of_not_alpha hd).symm
  · rintro rfl
    exact toUpper_of_not_alpha hd

lemma toUpper_ne (hd : d.isAlpha = false) (h : c ≠ d) : c.toUpper ≠ d := mt (toUpper_eq_iff hd).1 h

lemma toUpper_beq (hd : d.isAlpha = false) : (c.toUpper == d) = (c == d) := by
  rw [Bool.eq_iff_iff, beq_iff_eq, beq_iff_eq]
  exact toUpper_eq_iff hd

lemma span_upper {p : Char → Bool} (hp : ∀ c, p c.toUpper = p c) (t : Text) :
    (upper t).takeWhile p = upper (t.takeWhile p) ∧
      (upper t).dropWhile p = upper (t.dropWhile p) := by
  have hcomp : p ∘ Char.toUpper = p := funext hp
  unfold upper
  rw [List.takeWhile_map, List.dropWhile_map, hcomp]
  exact ⟨rfl, rfl⟩

lemma all_upper {p : Char → Bool} (hp : ∀ c, p c.toUpper = p c) (t : Text) :
    (upper t).all p = t.all p := by
  have hcomp : p ∘ Char.toUpper = p := funext hp
  rw [upper, List.all_map, hcomp]

lemma cut?_upper (hd : d.isAlpha = false) (t : Text) :
    cut? d (upper t) = (cut? d t).map fun x => (upper x.1, upper x.2) := by
  induction t with
  | nil => rfl
  | cons c t ih =>
    rw [upper_cons, cut?, cut?]
    by_cases hc : c = d
    · rw [if_pos hc, if_pos ((toUpper_eq_iff hd).2 hc)]
      rfl
    · rw [if_neg hc, if_neg (toUpper_ne hd hc), ih, Option.map_map, Option.map_map]
      rfl

lemma splitName_upper (t : Text) :
    splitName (upper t) = (upper (splitName t).1, upper (splitName t).2) := by
  obtain ⟨htake, hdrop⟩ := span_upper isNameChar_toUpper t
  unfold splitName
  rw [htake, hdrop]
  cases t.dropWhile isNameChar with
  | nil => rfl
  | cons c r =>
    by_cases hc : c = '$'
    · subst hc
      have hdollar : upper ('$' :: r) = '$' :: upper r := rfl
      rw [hdollar]
      exact Prod.ext (upper_append _ ['$']).symm rfl
    · simp [upper_cons, hc, toUpper_ne (by decide) hc]

lemma trimStart_upper (t : Text) : trimStart (upper t) = upper (trimStart t) :=
  (span_upper isBlank_toUpper t).2

end Text

open Text

lemma Variables.value?_upper (vars : Variables) (n : Text) :
    vars.value? (upper n) = vars.value? n := by
  unfold Variables.value? canonical
  rw [trim_upper, upper_upper]

namespace Number

variable {c : Char} {t : Text}

lemma isDigit_of_isAlpha (h : c.isAlpha = true) : isDigit c = false := by
  delta Char.isAlpha Char.isUpper Char.isLower at h
  simp only [Bool.or_eq_true, Bool.and_eq_true, decide_eq_true_eq, UInt32.le_iff_toNat_le] at h
  have hval : c.toNat = c.val.toNat := rfl
  simp only [isDigit, Bool.and_eq_false_iff, decide_eq_false_iff_not]
  rcases h with h | h <;> simp at h <;> omega

lemma isDigit_toUpper (c : Char) : isDigit c.toUpper = isDigit c := by
  by_cases hc : c.isAlpha = true
  · rw [isDigit_of_isAlpha hc, isDigit_of_isAlpha (by rwa [isAlpha_toUpper])]
  · rw [toUpper_of_not_alpha (by simpa using hc)]

lemma toUpper_of_isDigit (h : isDigit c = true) : c.toUpper = c := by
  refine toUpper_of_not_alpha ?_
  by_contra halpha
  rw [isDigit_of_isAlpha (by simpa using halpha)] at h
  cases h

lemma upper_of_digits (h : t.all isDigit = true) : upper t = t :=
  upper_eq_self fun c hc => toUpper_of_isDigit (List.all_eq_true.1 h c hc)

/-- Digits are the same in either case. -/
lemma span_digits_upper (t : Text) :
    (upper t).takeWhile isDigit = t.takeWhile isDigit ∧
      (upper t).dropWhile isDigit = upper (t.dropWhile isDigit) := by
  obtain ⟨htake, hdrop⟩ := span_upper isDigit_toUpper t
  rw [htake, hdrop, upper_of_digits List.all_takeWhile]
  exact ⟨rfl, rfl⟩

/-! ### Numbers -/

lemma readDigits?_upper (t : Text) : readDigits? (upper t) = readDigits? t := by
  unfold readDigits?
  rw [all_upper isDigit_toUpper]
  by_cases h : t ≠ [] ∧ t.all isDigit = true
  · rw [upper_of_digits h.2]
  · rw [if_neg h, if_neg fun h' => h ⟨fun hnil => h'.1 (upper_eq_nil_iff.2 hnil), h'.2⟩]

lemma readInt?_upper (t : Text) : readInt? (upper t) = readInt? t := by
  cases t with
  | nil => rfl
  | cons c t =>
    by_cases hplus : c = '+'
    · subst hplus
      exact congrArg (Option.map Int.ofNat) (readDigits?_upper t)
    by_cases hminus : c = '-'
    · subst hminus
      have hsign : upper ('-' :: t) = '-' :: upper t := rfl
      rw [hsign, readInt?, readInt?, readDigits?_upper]
    have hdigits := readDigits?_upper (c :: t)
    rw [upper_cons] at hdigits ⊢
    simp [readInt?, hplus, hminus, toUpper_ne (by decide) hplus, toUpper_ne (by decide) hminus,
      hdigits]

/-- An exponent may be marked either way. -/
lemma mark_toUpper (c : Char) : (c.toUpper = 'e' ∨ c.toUpper = 'E') ↔ (c = 'e' ∨ c = 'E') := by
  constructor
  · rintro (h | h)
    · have hlower := not_isLower_toUpper c
      rw [h] at hlower
      exact absurd rfl hlower
    · refine (eq_or_of_toUpper h).symm.imp_left fun hc => ?_
      rw [← Char.ofNat_toNat c, hc]
      rfl
  · rintro (rfl | rfl)
    · exact .inr rfl
    · exact .inr rfl

lemma readExponent?_upper (t : Text) : readExponent? (upper t) = readExponent? t := by
  cases t with
  | nil => rfl
  | cons c t => simp only [upper_cons, readExponent?, mark_toUpper, readInt?_upper]

lemma readUnsigned?_upper (t : Text) : readUnsigned? (upper t) = readUnsigned? t := by
  obtain ⟨htake, hdrop⟩ := span_digits_upper t
  unfold readUnsigned?
  rw [htake, hdrop]
  cases t.dropWhile isDigit with
  | nil => rfl
  | cons c r =>
    by_cases hc : c = '.'
    · subst hc
      obtain ⟨htake, hdrop⟩ := span_digits_upper r
      have hpoint : upper ('.' :: r) = '.' :: upper r := rfl
      simp only [hpoint, htake, hdrop, readExponent?_upper]
    · have hexponent := readExponent?_upper (c :: r)
      rw [upper_cons] at hexponent ⊢
      simp [hc, toUpper_ne (by decide) hc, hexponent]

end Number

namespace Expr

open Number

variable {vars : Variables} {limits : Limits} {due : Bool} {c : Char}

namespace Token

/-! ### Numerals -/

lemma splitSign_upper (t : Text) :
    splitSign (upper t) = ((splitSign t).1, upper (splitSign t).2) := by
  cases t with
  | nil => rfl
  | cons c r =>
    by_cases hplus : c = '+'
    · subst hplus
      rfl
    by_cases hminus : c = '-'
    · subst hminus
      rfl
    simp [upper_cons, splitSign, hplus, hminus, toUpper_ne (by decide) hplus,
      toUpper_ne (by decide) hminus]

lemma upper_splitSign (t : Text) : upper (splitSign t).1 = (splitSign t).1 := by
  unfold splitSign
  split <;> rfl

lemma splitFraction_upper (t : Text) :
    splitFraction (upper t) = ((splitFraction t).1, upper (splitFraction t).2) := by
  cases t with
  | nil => rfl
  | cons c r =>
    by_cases hc : c = '.'
    · subst hc
      obtain ⟨htake, hdrop⟩ := span_digits_upper r
      have hpoint : upper ('.' :: r) = '.' :: upper r := rfl
      simp [hpoint, splitFraction, htake, hdrop]
    · simp [upper_cons, splitFraction, hc, toUpper_ne (by decide) hc]

lemma upper_splitFraction (t : Text) : upper (splitFraction t).1 = (splitFraction t).1 := by
  unfold splitFraction
  split
  · next r => exact congrArg ('.' :: ·) (upper_of_digits List.all_takeWhile)
  · rfl

/-- Of a numeral, only the mark of its exponent can change. -/
lemma splitExponent_upper (t : Text) :
    splitExponent (upper t) = (upper (splitExponent t).1, upper (splitExponent t).2) := by
  cases t with
  | nil => rfl
  | cons e r =>
    obtain ⟨htake, hdrop⟩ := span_digits_upper (splitSign r).2
    rw [upper_cons, splitExponent, splitExponent]
    simp only [mark_toUpper, splitSign_upper, htake, hdrop]
    split
    · rw [upper_append, upper_cons, upper_splitSign, upper_of_digits List.all_takeWhile]
    · rfl

lemma numeralValue_upper {whole fraction : Text} (hw : upper whole = whole)
    (hf : upper fraction = fraction) (exponent : Text) :
    numeralValue whole fraction (upper exponent) = numeralValue whole fraction exponent := by
  have hread : readUnsigned? (whole ++ fraction ++ upper exponent) =
      readUnsigned? (whole ++ fraction ++ exponent) := by
    rw [← readUnsigned?_upper (whole ++ fraction ++ exponent), upper_append, upper_append, hw, hf]
  unfold numeralValue
  simp only [List.append_eq_nil_iff, upper_eq_nil_iff, hread]

lemma readNumeral_upper (t : Text) :
    readNumeral (upper t) = ((readNumeral t).1, upper (readNumeral t).2) := by
  obtain ⟨htake, hdrop⟩ := span_digits_upper t
  have hwhole : upper (t.takeWhile isDigit) = t.takeWhile isDigit :=
    upper_of_digits List.all_takeWhile
  simp only [readNumeral, htake, hdrop, splitFraction_upper, splitExponent_upper,
    numeralValue_upper hwhole (upper_splitFraction _)]

lemma startsNumeral_upper (c : Char) (r : Text) :
    startsNumeral c.toUpper (upper r) = startsNumeral c r := by
  have hpoint : (c.toUpper == '.') = (c == '.') := toUpper_beq (by decide)
  cases r with
  | nil => simp [startsNumeral, isDigit_toUpper, hpoint, upper]
  | cons d r => simp [startsNumeral, isDigit_toUpper, hpoint, upper]

/-! ### Words, references and symbols -/

lemma ofWord_upper (w rest : Text) : ofWord (upper w) (upper rest) = ofWord w rest := by
  have hcall : (trimStart (upper rest)).head? = some '(' ↔ (trimStart rest).head? = some '(' := by
    rw [trimStart_upper]
    cases trimStart rest with
    | nil => rfl
    | cons c r => simp [upper_cons, toUpper_eq_iff]
  simp only [ofWord, upper_upper, hcall]

/-- The token, with what follows it in capitals. -/
def raised (x : Token × Text) : Token × Text := (x.1, upper x.2)

lemma readReference_upper (t : Text) :
    readReference vars (upper t) = (readReference vars t).map raised := by
  have hchar : ∀ c, isReferenceChar c.toUpper = isReferenceChar c := by
    intro c
    rw [isReferenceChar, isReferenceChar, isNameChar_toUpper, toUpper_beq (by decide)]
  unfold readReference
  rw [cut?_upper (by decide)]
  cases cut? '*' t with
  | none => rfl
  | some x =>
    rw [Option.map_some]
    dsimp only
    rw [all_upper hchar, Variables.value?_upper, upper_upper]
    simp only [ne_eq, upper_eq_nil_iff]
    split
    · cases vars.value? x.1 <;> rfl
    · rfl

/-- No symbol has a letter in it. -/
lemma lookup_pairSymbols_toUpper (c d : Char) :
    pairSymbols.lookup (c, d.toUpper) = pairSymbols.lookup (c, d) := by
  have hall : ∀ x ∈ pairSymbols, x.1.2.isAlpha = false := by decide
  by_cases hd : d.isAlpha = true
  · have hup : d.toUpper.isAlpha = true := by rwa [isAlpha_toUpper]
    rw [lookup_pairSymbols_eq_none hall hd, lookup_pairSymbols_eq_none hall hup]
  · rw [toUpper_of_not_alpha (by simpa using hd)]

lemma readSymbol_upper (c : Char) (r : Text) :
    readSymbol due c (upper r) = (readSymbol due c r).map raised := by
  have hpair : (upper r).head?.bind (fun d => pairSymbols.lookup (c, d)) =
      r.head?.bind fun d => pairSymbols.lookup (c, d) := by
    cases r with
    | nil => rfl
    | cons d r => exact lookup_pairSymbols_toUpper c d
  unfold readSymbol
  rw [hpair]
  cases hr : r.head?.bind fun d => pairSymbols.lookup (c, d) with
  | some o =>
    cases r with
    | nil => cases hr
    | cons d r => rfl
  | none =>
    dsimp only
    split
    · rfl
    · split
      · rfl
      · cases singleSymbols.lookup c <;> rfl

lemma not_alpha_of_not_nameStart (h : isNameStart c = false) : c.isAlpha = false := by
  by_contra hc
  simp [isNameStart, isAlphabetic_of_isAlpha (by simpa using hc)] at h

/-- Every token but a text in quotes is read as it is in capitals. -/
lemma read_upper (hc : isQuote c = false) (r : Text) :
    read vars due c.toUpper (upper r) = (read vars due c r).map raised := by
  have hquote : ¬ (c = '"' ∨ c = '\'') := by simpa [isQuote] using hc
  have hquote' : ¬ (c.toUpper = '"' ∨ c.toUpper = '\'') := by
    rwa [toUpper_eq_iff (by decide), toUpper_eq_iff (by decide)]
  have hstar : (c.toUpper = '*' ∧ due = true) ↔ (c = '*' ∧ due = true) :=
    and_congr_left' (toUpper_eq_iff (by decide))
  unfold read
  simp only [startsNumeral_upper, ← upper_cons, readNumeral_upper, splitName_upper, ofWord_upper,
    isNameStart_toUpper, readReference_upper, hstar, if_neg hquote, if_neg hquote']
  split
  · rfl
  · split
    · rfl
    · next hname =>
      split
      · rfl
      · rw [toUpper_of_not_alpha (not_alpha_of_not_nameStart (by simpa using hname))]
        exact readSymbol_upper c r

/-! ### What a token leaves -/

lemma suffix_splitSign (t : Text) : (splitSign t).2 <:+ t := by
  unfold splitSign
  split
  · exact List.suffix_cons _ _
  · exact List.suffix_cons _ _
  · exact List.suffix_rfl

lemma suffix_splitExponent (t : Text) : (splitExponent t).2 <:+ t := by
  unfold splitExponent
  split
  · exact List.suffix_rfl
  · next e r =>
    dsimp only
    split
    · exact ((List.dropWhile_suffix _).trans (suffix_splitSign r)).trans (List.suffix_cons e r)
    · exact List.suffix_rfl

lemma suffix_splitFraction (t : Text) : (splitFraction t).2 <:+ t := by
  unfold splitFraction
  split
  · next r => exact (List.dropWhile_suffix _).trans (List.suffix_cons _ r)
  · exact List.suffix_rfl

lemma suffix_splitName (t : Text) : (splitName t).2 <:+ t := by
  have hdrop : t.dropWhile isNameChar <:+ t := List.dropWhile_suffix _
  unfold splitName
  split
  · next r hr => exact (hr ▸ List.suffix_cons '$' r).trans hdrop
  · exact hdrop

lemma suffix_of_cut? {t s r : Text} (h : cut? c t = some (s, r)) : r <:+ t := by
  rw [eq_of_cut? h]
  exact (List.suffix_cons c r).trans (List.suffix_append s _)

lemma suffix_readReference {t rest : Text} {tok : Token}
    (h : readReference vars t = .ok (tok, rest)) : rest <:+ t := by
  unfold readReference at h
  split at h
  · cases h
  · next n r hc =>
    split at h
    · split at h
      · cases h
        exact suffix_of_cut? hc
      · cases h
    · cases h

lemma suffix_readSymbol {r rest : Text} {tok : Token}
    (h : readSymbol due c r = .ok (tok, rest)) : rest <:+ r := by
  unfold readSymbol at h
  split at h
  · cases h
    exact List.tail_suffix r
  · split at h
    · cases h
      exact List.suffix_rfl
    · split at h
      · cases h
        exact List.suffix_rfl
      · split at h
        · cases h
          exact List.suffix_rfl
        · cases h

lemma suffix_read {r rest : Text} {tok : Token} (h : read vars due c r = .ok (tok, rest)) :
    rest <:+ c :: r := by
  unfold read at h
  split at h
  · cases h
    exact (suffix_splitExponent _).trans ((suffix_splitFraction _).trans (List.dropWhile_suffix _))
  · split at h
    · split at h
      · next hc =>
        cases h
        exact (suffix_of_cut? hc).trans (List.suffix_cons c r)
      · cases h
    · split at h
      · cases h
        exact suffix_splitName _
      · split at h
        · exact (suffix_readReference h).trans (List.suffix_cons c r)
        · exact (suffix_readSymbol h).trans (List.suffix_cons c r)

lemma scan_upper {t : Text} (ht : ∀ c ∈ t, isQuote c = false) (prev : Option Token)
    (count : Nat) : scan vars limits prev count (upper t) = scan vars limits prev count t := by
  induction hlen : t.length using Nat.strongRecOn generalizing t prev count with
  | ind n ih =>
    subst hlen
    cases t with
    | nil => rfl
    | cons c r =>
      rw [upper_cons]
      by_cases hc : isBlank c = true
      · rw [scan, if_pos ((isBlank_toUpper c).trans hc), scan, if_pos hc]
        exact ih r.length (by simp) (fun d hd => ht d (List.mem_cons_of_mem c hd)) prev count rfl
      · have hc : isBlank c = false := by simpa using hc
        rw [scan_cons ((isBlank_toUpper c).trans hc), scan_cons hc,
          read_upper (ht c List.mem_cons_self)]
        cases hread : read vars (expectsOperand prev) c r with
        | error e => rfl
        | ok x =>
          have hshort := length_read hread
          have hrest : ∀ d ∈ x.2, isQuote d = false := fun d hd =>
            ht d ((suffix_read hread).subset hd)
          dsimp only [Except.map, Except.bind, raised]
          rw [ih x.2.length (by rw [List.length_cons]; omega) hrest _ _ rfl]

end Token

/-- **The case of letters does not matter** in an expression without quotes: in capitals it has the
same value or the same error, and draws the same random numbers. -/
theorem evaluate_upper {t : Text} (ht : ∀ c ∈ t, isQuote c = false) (vars : Variables)
    (limits : Limits) (g : Generator) :
    evaluate vars limits (upper t) g = evaluate vars limits t g := by
  have htokens : Token.tokenize vars limits (upper t) = Token.tokenize vars limits t :=
    Token.scan_upper ht none 0
  unfold evaluate
  rw [htokens]

/-- A reference, an exponent, a word, a function and a name in small letters. -/
theorem evaluate_upper_mixed :
    (∀ c ∈ "*ab* mod 1e1 + len(ab)".toList, isQuote c = false) ∧
      evaluate ⟨[("AB".toList, .integer 7)]⟩ {} "*AB* MOD 1E1 + LEN(AB)".toList default =
        evaluate ⟨[("AB".toList, .integer 7)]⟩ {} "*ab* mod 1e1 + len(ab)".toList default := by
  have hquotes : ∀ c ∈ "*ab* mod 1e1 + len(ab)".toList, isQuote c = false := by simp [isQuote]
  exact ⟨hquotes, evaluate_upper hquotes ⟨[("AB".toList, .integer 7)]⟩ {} default⟩

end Expr

end Courseware
