import Courseware.Logo.Reference
import Courseware.Proofs.Expr.LetterCase
import Courseware.Proofs.Expr.Numerals

/-!
References in expressions on whole numbers.

Before an expression is evaluated, the value of a variable is written in place of a reference to
it. The expression then has the same value as with the name of the variable, with three
exceptions that come from the minus sign of a negative value: the sign is a token of its own, it
binds less than a power, and the opposite of the least number is none.
-/

namespace Courseware.Logo

open Text Number Courseware.Expr Courseware.Expr.Token

variable {vars : Variables} {rest : Text} {c : Char}

/-! ### Formulas -/

/-- Expressions that are put together from references, numerals, signs, parentheses and operators,
with white space anywhere. -/
inductive Formula where
  | reference (name : Text)
  | numeral (digits : Text)
  | minus (f : Formula)
  | group (f : Formula)
  | join (l : Formula) (o : BinaryOp) (r : Formula)
  | spaced (before : Text) (f : Formula) (after : Text)

namespace Formula

/-- The text of a formula, given how a reference is written. -/
def text (write : Text → Text) : Formula → Text
  | reference n => write n
  | numeral ds => ds
  | minus f => '-' :: f.text write
  | group f => '(' :: (f.text write ++ [')'])
  | join l o r => l.text write ++ (o.symbol.toList ++ r.text write)
  | spaced before f after => before ++ (f.text write ++ after)

/-- The tokens of a formula, given those of a reference. -/
def tokens (write : Text → List Token) : Formula → List Token
  | reference n => write n
  | numeral ds => [.literal (numeralValue ds [] [])]
  | minus f => .operator (.unary .neg) :: f.tokens write
  | group f => .openParen :: (f.tokens write ++ [.closeParen])
  | join l o r => l.tokens write ++ .operator (.binary o) :: r.tokens write
  | spaced _ f _ => f.tokens write

def references : Formula → List Text
  | reference n => [n]
  | numeral _ => []
  | minus f => f.references
  | group f => f.references
  | join l _ r => l.references ++ r.references
  | spaced _ f _ => f.references

/-- The last character belongs to a name. -/
def endsInName : Formula → Bool
  | reference _ => true
  | numeral _ => false
  | minus f => f.endsInName
  | group _ => false
  | join _ _ r => r.endsInName
  | spaced _ f after => after.isEmpty && f.endsInName

/-- The first character belongs to a name or a numeral. -/
def beginsWithWord : Formula → Bool
  | reference _ => true
  | numeral _ => true
  | minus _ => false
  | group _ => false
  | join l _ _ => l.beginsWithWord
  | spaced before f _ => before.isEmpty && f.beginsWithWord

/-- The words that are operators. -/
def operatorWords : List Text := ["NOT".toList, "AND".toList, "OR".toList, "MOD".toList]

/-- References are names other than operators, numerals consist of digits, and white space sets
the operator `MOD` off from names, and from a numeral after it. -/
def wellFormed : Formula → Bool
  | reference n => isName n && upper n ∉ operatorWords
  | numeral ds => ds ≠ [] && ds.all isDigit
  | minus f => f.wellFormed
  | group f => f.wellFormed
  | join l o r => l.wellFormed && r.wellFormed && o ∈ arithmeticOps &&
      (o ≠ .mod || (!l.endsInName && !r.beginsWithWord))
  | spaced before f after => before.all isBlank && f.wellFormed && after.all isBlank

end Formula

/-! ### What follows a part of a formula -/

/-- What follows neither continues what came before nor makes a function of it. -/
structure Closes (named : Bool) (rest : Text) : Prop where
  numeral : EndsNumeral rest
  name : named = true → EndsName rest
  call : (trimStart rest).head? ≠ some '('

lemma closes_nil (named : Bool) : Closes named [] :=
  ⟨by simp [EndsNumeral], by simp [EndsName], by simp [trimStart]⟩

lemma closes_cons (named : Bool) (hc : isNameChar c = false) (hpoint : c ≠ '.') (hdollar : c ≠ '$')
    (hcall : (trimStart (c :: rest)).head? ≠ some '(') : Closes named (c :: rest) := by
  have hnot : ∀ d, isNameChar d = true → c ≠ d := by
    rintro d hd rfl
    rw [hd] at hc
    cases hc
  refine ⟨?_, ?_, hcall⟩
  · rintro d ⟨⟩
    refine ⟨?_, hpoint, hnot 'e' (by decide), hnot 'E' (by decide)⟩
    by_contra hdigit
    rw [(isNameChar_of_isDigit (by simpa using hdigit)).2] at hc
    cases hc
  · rintro - d ⟨⟩
    exact ⟨hc, hdollar⟩

lemma closes_blank (named : Bool) (hc : isBlank c = true)
    (hcall : (trimStart rest).head? ≠ some '(') : Closes named (c :: rest) := by
  have hne : ∀ d, isBlank d = false → c ≠ d := by
    rintro d hd rfl
    rw [hd] at hc
    cases hc
  refine closes_cons named (isNameChar_of_isBlank hc) (hne '.' (by decide)) (hne '$' (by decide)) ?_
  rwa [trimStart_cons_of_blank hc]

lemma closes_blanks {named : Bool} {b : Text} (hb : b.all isBlank = true)
    (h : Closes (b.isEmpty && named) rest) : Closes named (b ++ rest) := by
  cases b with
  | nil => exact h
  | cons c b =>
    rw [List.all_cons, Bool.and_eq_true] at hb
    rw [List.cons_append]
    refine closes_blank named hb.1 ?_
    unfold trimStart
    rw [List.dropWhile_append_of_pos (List.all_eq_true.1 hb.2)]
    exact h.call

/-- An operator ends what stands before it, the word `MOD` only if that is no name. -/
lemma closes_operator {named : Bool} {o : BinaryOp} (ho : o ∈ arithmeticOps)
    (hmod : o = .mod → named = false) : Closes named (o.symbol.toList ++ rest) := by
  simp only [arithmeticOps, List.mem_cons, List.not_mem_nil, or_false] at ho
  have hsymbol : ∀ c, isNameChar c = false → c ≠ '.' → c ≠ '$' → isBlank c = false → c ≠ '(' →
      Closes named (c :: rest) := by
    intro c hname hpoint hdollar hblank hparen
    refine closes_cons named hname hpoint hdollar ?_
    rw [trimStart_cons_of_not_blank hblank]
    simpa using hparen
  rcases ho with rfl | rfl | rfl | rfl | rfl
  · exact hsymbol '+' (by decide) (by decide) (by decide) (by decide) (by decide)
  · exact hsymbol '-' (by decide) (by decide) (by decide) (by decide) (by decide)
  · exact hsymbol '*' (by decide) (by decide) (by decide) (by decide) (by decide)
  · -- `MOD` is a word, so no name may stand before it
    refine ⟨?_, fun h => ?_, ?_⟩
    · rintro c ⟨⟩
      exact ⟨by decide, by decide, by decide, by decide⟩
    · rw [hmod rfl] at h
      cases h
    · change (trimStart ('M' :: _)).head? ≠ some '('
      rw [trimStart_cons_of_not_blank (by decide)]
      simp
  · exact hsymbol '^' (by decide) (by decide) (by decide) (by decide) (by decide)

lemma closes_paren (named : Bool) : Closes named (')' :: rest) := by
  refine closes_cons named (by decide) (by decide) (by decide) ?_
  rw [trimStart_cons_of_not_blank (by decide)]
  simp

/-! ### The tokens of a formula -/

namespace Formula

variable {f : Formula} {write : Text → Text} {tokensOf : Text → List Token} {toks : List Token}

lemma of_wellFormed_join {l r : Formula} {o : BinaryOp} (h : (join l o r).wellFormed = true) :
    l.wellFormed = true ∧ r.wellFormed = true ∧ o ∈ arithmeticOps ∧
      (o = .mod → l.endsInName = false ∧ r.beginsWithWord = false) := by
  simp only [wellFormed, Bool.and_eq_true, Bool.or_eq_true, Bool.not_eq_true',
    decide_eq_true_eq] at h
  obtain ⟨⟨⟨hl, hr⟩, ho⟩, hmod⟩ := h
  exact ⟨hl, hr, ho, fun hm => hmod.resolve_left fun hne => hne hm⟩

lemma of_wellFormed_spaced {before after : Text} (h : (spaced before f after).wellFormed = true) :
    before.all isBlank = true ∧ f.wellFormed = true ∧ after.all isBlank = true := by
  simp only [wellFormed, Bool.and_eq_true] at h
  exact ⟨h.1.1, h.1.2, h.2⟩

lemma wellFormed_reference (hw : f.wellFormed = true) {n : Text} (hn : n ∈ f.references) :
    (reference n).wellFormed = true := by
  induction f with
  | reference m =>
    rw [List.mem_singleton.1 hn]
    exact hw
  | numeral ds => cases hn
  | minus f ih => exact ih hw hn
  | group f ih => exact ih hw hn
  | join l o r ihl ihr =>
    obtain ⟨hl, hr, -, -⟩ := of_wellFormed_join hw
    exact (List.mem_append.1 hn).elim (ihl hl) (ihr hr)
  | spaced before f after ih => exact ih (of_wellFormed_spaced hw).2.1 hn

/-- A formula that does not begin with a word begins with a sign, a parenthesis or white space. -/
lemma endsName_text (hw : f.wellFormed = true) (h : f.beginsWithWord = false) (rest : Text) :
    EndsName (f.text write ++ rest) := by
  induction f generalizing rest with
  | reference n => cases h
  | numeral ds => cases h
  | minus f ih =>
    rintro c ⟨⟩
    exact ⟨by decide, by decide⟩
  | group f ih =>
    rintro c ⟨⟩
    exact ⟨by decide, by decide⟩
  | join l o r ihl ihr =>
    rw [text, List.append_assoc]
    exact ihl (of_wellFormed_join hw).1 h _
  | spaced before f after ih =>
    -- white space before the formula, or the formula itself
    obtain ⟨hbefore, hf, -⟩ := of_wellFormed_spaced hw
    rw [text, List.append_assoc]
    cases before with
    | nil =>
      rw [List.nil_append, List.append_assoc]
      exact ih hf h _
    | cons b before =>
      rw [List.all_cons, Bool.and_eq_true] at hbefore
      rintro c ⟨⟩
      refine ⟨isNameChar_of_isBlank hbefore.1, ?_⟩
      rintro rfl
      exact absurd hbefore.1 (by decide)

/-- **The tokens of a formula.** They are read off its parts if the tokens of references are. -/
theorem reads (hw : f.wellFormed = true)
    (href : ∀ n ∈ f.references, ∀ rest toks, Closes true rest → Reads vars false rest toks →
      Reads vars true (write n ++ rest) (tokensOf n ++ toks))
    (hrest : Closes f.endsInName rest) (h : Reads vars false rest toks) :
    Reads vars true (f.text write ++ rest) (f.tokens tokensOf ++ toks) := by
  induction f generalizing rest toks with
  | reference n => exact href n (List.mem_singleton_self n) rest toks hrest h
  | numeral ds =>
    simp only [wellFormed, Bool.and_eq_true, decide_eq_true_eq] at hw
    exact .numeral hw.1 hw.2 hrest.numeral h
  | minus f ih => exact .sign (ih hw href hrest h)
  | group f ih =>
    rw [text, tokens, List.cons_append, List.cons_append, List.append_assoc, List.append_assoc]
    exact .openParen (ih hw href (closes_paren _) (.closeParen h))
  | join l o r ihl ihr =>
    obtain ⟨hl, hr, ho, hmod⟩ := of_wellFormed_join hw
    have hright := ihr hr (fun n hn => href n (List.mem_append_right _ hn)) hrest h
    have hends : o = .mod → EndsName (r.text write ++ rest) := fun hm =>
      endsName_text hr (hmod hm).2 rest
    rw [text, tokens, List.append_assoc, List.append_assoc, List.append_assoc]
    exact ihl hl (fun n hn => href n (List.mem_append_left _ hn))
      (closes_operator ho fun hm => (hmod hm).1) (.binary ho hends hright)
  | spaced before f after ih =>
    obtain ⟨hbefore, hf, hafter⟩ := of_wellFormed_spaced hw
    rw [text, tokens, List.append_assoc, List.append_assoc]
    exact .blanks hbefore (ih hf href (closes_blanks hafter hrest) (.blanks hafter h))

/-! ### Names -/

lemma ofWord_eq_name {w : Text} (hw : upper w ∉ operatorWords)
    (hcall : (trimStart rest).head? ≠ some '(') : Token.ofWord w rest = .name (upper w) := by
  simp only [operatorWords, List.mem_cons, List.not_mem_nil, or_false, not_or] at hw
  obtain ⟨hnot, hand, hor, hmod⟩ := hw
  have hlookup := lookup_wordOperators hand hor hmod
  unfold Token.ofWord
  rw [if_neg hnot, hlookup]
  exact if_neg hcall

/-- The tokens with the names of the variables. -/
def nameTokens (n : Text) : List Token := [.name (upper n)]

lemma reads_name {n : Text} (hn : (reference n).wellFormed = true) {rest : Text} {toks : List Token}
    (hrest : Closes true rest) (h : Reads vars false rest toks) :
    Reads vars true (upper n ++ rest) (nameTokens n ++ toks) := by
  simp only [wellFormed, Bool.and_eq_true, decide_eq_true_eq] at hn
  have hword := ofWord_eq_name (w := upper n) (by rw [upper_upper]; exact hn.2) hrest.call
  rw [upper_upper] at hword
  have hreads : Reads vars true (upper n ++ rest) (Token.ofWord (upper n) rest :: toks) :=
    .word (isName_upper hn.1) (hrest.name rfl) (by rw [hword]; exact h)
  rwa [hword] at hreads

/-! ### Values -/

/-- What a reference is replaced by. -/
def shown (vars : Variables) (n : Text) : Text :=
  match vars.value? n with
  | some v => v.display
  | none => []

/-- The whole number that a variable holds. -/
def held? (vars : Variables) (n : Text) : Option Int64 :=
  match vars.value? n with
  | some (.integer k) => some k
  | _ => none

/-- The tokens with the values of the variables. -/
def valueTokens (vars : Variables) (n : Text) : List Token :=
  match held? vars n with
  | some k =>
    if k.toInt < 0 then [.operator (.unary .neg), .literal (.integer (-k))]
    else [.literal (.integer k)]
  | none => []

lemma held?_eq_some_iff {n : Text} {k : Int64} :
    held? vars n = some k ↔ vars.value? n = some (.integer k) := by
  unfold held?
  split
  · next k' hv => simp [hv]
  · next hv => exact iff_of_false (by simp) (hv k)

lemma shown_of_held? {n : Text} {k : Int64} (h : held? vars n = some k) :
    shown vars n = signedDecimal k.toInt := by
  unfold shown
  rw [held?_eq_some_iff.1 h]
  rfl

lemma reads_value {n : Text} {k : Int64} (hk : held? vars n = some k) (hmin : k ≠ Int64.minValue)
    {rest : Text} {toks : List Token} (hrest : Closes true rest) (h : Reads vars false rest toks) :
    Reads vars true (shown vars n ++ rest) (valueTokens vars n ++ toks) := by
  have htokens : valueTokens vars n = numberTokens k := by
    rw [valueTokens, hk]
    rfl
  rw [shown_of_held? hk, htokens]
  exact reads_signedDecimal hmin hrest.numeral h

end Formula

/-! ### Writing the values -/

/-- The text `s`, with `rest` behind it, is replaced by `s'`. -/
def Writes (vars : Variables) (s s' rest : Text) : Prop :=
  expand vars (s ++ rest) = (expand vars rest).map (s' ++ ·)

lemma Writes.append {s s' t t' : Text} (hs : Writes vars s s' (t ++ rest))
    (ht : Writes vars t t' rest) : Writes vars (s ++ t) (s' ++ t') rest := by
  unfold Writes at hs ht ⊢
  rw [List.append_assoc, hs, ht]
  cases expand vars rest with
  | error e => rfl
  | ok u => simp [Except.map]

/-- A text without colons stays as it is. -/
lemma Writes.copy {s : Text} (hs : ':' ∉ s) : Writes vars s s rest := by
  induction s with
  | nil =>
    unfold Writes
    cases h : expand vars rest <;> simp [Except.map, h]
  | cons c s ih =>
    rw [List.mem_cons, not_or] at hs
    have hc : ¬ (c = ':' ∧ (s ++ rest).head?.any isNameStart = true) := fun h => hs.1 h.1.symm
    have hfirst : Writes vars [c] [c] (s ++ rest) := by
      unfold Writes
      rw [List.singleton_append, expand, if_neg hc]
      rfl
    exact hfirst.append (ih hs.2)

lemma Writes.reference {n : Text} {v : Value} {s : Text} (hn : isName n = true)
    (hrest : EndsName rest) (hv : vars.value? n = some v) (hs : spliced v = .ok s) :
    Writes vars (':' :: n) s rest := by
  rw [isName, Bool.and_eq_true] at hn
  obtain ⟨htake, hdrop⟩ := takeWhile_append_of_all hn.2 fun c hc => (hrest c hc).1
  have hstart : (n ++ rest).head?.any isNameStart = true := by
    cases n with
    | nil => cases hn.1
    | cons c n => exact hn.1
  unfold Writes
  rw [List.cons_append, expand, if_pos ⟨rfl, hstart⟩]
  simp only [htake, hdrop, hv, hs]

namespace Formula

variable {f : Formula} {toks toks' : List Token}

/-- The references of a formula are written as `:NAME`. -/
def source (f : Formula) : Text := f.text (':' :: ·)

/-- **The values of the variables take the place of the references.** -/
theorem writes_source (hw : f.wellFormed = true)
    (hheld : ∀ n ∈ f.references, ∃ k, held? vars n = some k) (hrest : Closes f.endsInName rest) :
    Writes vars f.source (f.text (shown vars)) rest := by
  induction f generalizing rest with
  | reference n =>
    obtain ⟨k, hk⟩ := hheld n (List.mem_singleton_self n)
    simp only [wellFormed, Bool.and_eq_true] at hw
    rw [text, shown_of_held? hk]
    exact .reference hw.1 (hrest.name rfl) (held?_eq_some_iff.1 hk) rfl
  | numeral ds =>
    simp only [wellFormed, Bool.and_eq_true] at hw
    exact .copy fun hc => absurd (List.all_eq_true.1 hw.2 _ hc) (by decide)
  | minus f ih => exact Writes.append (s := ['-']) (.copy (by decide)) (ih hw hheld hrest)
  | group f ih =>
    have hclose : Writes vars [')'] [')'] rest := .copy (by decide)
    have hinner := (ih hw hheld (closes_paren _)).append hclose
    exact Writes.append (s := ['(']) (.copy (by decide)) hinner
  | join l o r ihl ihr =>
    obtain ⟨hl, hr, ho, hmod⟩ := of_wellFormed_join hw
    have hsymbol : ':' ∉ o.symbol.toList := by
      cases o <;> decide
    -- the operator ends a name before it, so the right variable is found
    have hcloses : Closes l.endsInName (o.symbol.toList ++ r.source ++ rest) := by
      rw [List.append_assoc]
      exact closes_operator ho fun hm => (hmod hm).1
    have hleft := ihl hl (fun n hn => hheld n (List.mem_append_left _ hn)) hcloses
    have hright := ihr hr (fun n hn => hheld n (List.mem_append_right _ hn)) hrest
    exact hleft.append (Writes.append (.copy hsymbol) hright)
  | spaced before f after ih =>
    obtain ⟨hbefore, hf, hafter⟩ := of_wellFormed_spaced hw
    have hblank : ∀ b : Text, b.all isBlank = true → ':' ∉ b := fun b hb hc =>
      absurd (List.all_eq_true.1 hb _ hc) (by decide)
    have hinner := (ih hf hheld (closes_blanks hafter hrest)).append (.copy (hblank _ hafter))
    exact Writes.append (.copy (hblank _ hbefore)) hinner

/-! ### The same value -/

/-- The formula ends in a reference to a negative number. -/
def endsNegative (vars : Variables) : Formula → Bool
  | reference n => (held? vars n).any (·.toInt < 0)
  | numeral _ => false
  | minus f => f.endsNegative vars
  | group _ => false
  | join _ _ r => r.endsNegative vars
  | spaced _ f _ => f.endsNegative vars

/-- No power follows a reference to a negative number. -/
def clearOfPowers (vars : Variables) : Formula → Bool
  | reference _ => true
  | numeral _ => true
  | minus f => f.clearOfPowers vars
  | group f => f.clearOfPowers vars
  | join l o r => l.clearOfPowers vars && r.clearOfPowers vars &&
      (o ≠ .pow || !l.endsNegative vars)
  | spaced _ f _ => f.clearOfPowers vars

/-- The number of tokens, a reference taken as one. -/
def size : Formula → Nat
  | reference _ => 1
  | numeral _ => 1
  | minus f => f.size + 1
  | group f => f.size + 2
  | join l _ r => l.size + 1 + r.size
  | spaced _ f _ => f.size

/-- How many references there are to negative numbers. -/
def negatives (vars : Variables) (f : Formula) : Nat :=
  f.references.countP fun n => (held? vars n).any (·.toInt < 0)

lemma length_nameTokens (f : Formula) : (f.tokens nameTokens).length = f.size := by
  induction f with
  | reference n => rfl
  | numeral ds => rfl
  | minus f ih => simp [tokens, size, ih]
  | group f ih => simp [tokens, size, ih]
  | join l o r ihl ihr => simp [tokens, size, ihl, ihr]; omega
  | spaced before f after ih => exact ih

lemma length_valueTokens (hheld : ∀ n ∈ f.references, ∃ k, held? vars n = some k) :
    (f.tokens (valueTokens vars)).length = f.size + f.negatives vars := by
  induction f with
  | reference n =>
    obtain ⟨k, hk⟩ := hheld n (List.mem_singleton_self n)
    by_cases hneg : k.toInt < 0
    · simp [tokens, valueTokens, negatives, references, size, hk, hneg]
    · simp [tokens, valueTokens, negatives, references, size, hk, hneg]
  | numeral ds => rfl
  | minus f ih =>
    have := ih hheld
    simp only [tokens, size, negatives, references, List.length_cons] at this ⊢
    omega
  | group f ih =>
    have := ih hheld
    simp only [tokens, size, negatives, references, List.length_cons, List.length_append,
      List.length_nil] at this ⊢
    omega
  | join l o r ihl ihr =>
    have hl := ihl fun n hn => hheld n (List.mem_append_left _ hn)
    have hr := ihr fun n hn => hheld n (List.mem_append_right _ hn)
    simp only [tokens, size, negatives, references, List.length_cons, List.length_append,
      List.countP_append] at hl hr ⊢
    omega
  | spaced before f after ih => exact ih hheld

/-- Values take the place of names in the tokens of a formula. -/
theorem spliced_tokens
    (hheld : ∀ n ∈ f.references, ∃ k, held? vars n = some k ∧ k ≠ Int64.minValue)
    (hp : f.clearOfPowers vars = true)
    (hpower : f.endsNegative vars = true → startsPower toks' = false)
    (h : Spliced vars toks toks') :
    Spliced vars (f.tokens nameTokens ++ toks) (f.tokens (valueTokens vars) ++ toks') := by
  induction f generalizing toks toks' with
  | reference n =>
    obtain ⟨k, hk, hmin⟩ := hheld n (List.mem_singleton_self n)
    have hv : vars.value? (upper n) = some (.integer k) := by
      rw [Variables.value?_upper, held?_eq_some_iff.1 hk]
    simp only [tokens, nameTokens, valueTokens, hk]
    -- a negative value becomes a sign and a literal
    by_cases hneg : k.toInt < 0
    · rw [if_pos hneg]
      exact .negated hv (negate_neg hmin) (hpower (by simp [endsNegative, hk, hneg])) h
    · rw [if_neg hneg]
      exact .value hv h
  | numeral ds => exact .same _ h
  | minus f ih => exact .same _ (ih hheld hp hpower h)
  | group f ih =>
    simp only [tokens, List.cons_append, List.append_assoc]
    exact .same _ (ih hheld hp (fun _ => rfl) (.same _ h))
  | join l o r ihl ihr =>
    simp only [clearOfPowers, Bool.and_eq_true, Bool.or_eq_true, Bool.not_eq_true',
      decide_eq_true_eq] at hp
    obtain ⟨⟨hl, hr⟩, ho⟩ := hp
    have hright := ihr (fun n hn => hheld n (List.mem_append_right _ hn)) hr hpower h
    simp only [tokens, List.append_assoc, List.cons_append]
    refine ihl (fun n hn => hheld n (List.mem_append_left _ hn)) hl (fun hneg => ?_)
      (.same _ hright)
    -- behind a negative value there is no power
    have hne : o ≠ .pow := ho.resolve_right (by simp [hneg])
    cases o with
    | pow => exact absurd rfl hne
    | _ => rfl
  | spaced before f after ih => exact ih hheld hp hpower h

section Whole

variable (hw : f.wellFormed = true)
include hw

lemma expand_source (hheld : ∀ n ∈ f.references, ∃ k, held? vars n = some k) :
    expand vars f.source = .ok (f.text (shown vars)) := by
  have h : Writes vars f.source _ [] := writes_source hw hheld (closes_nil _)
  unfold Writes at h
  rw [List.append_nil, expand] at h
  rw [h, Except.map, List.append_nil]

lemma reads_names : Reads vars true (f.text upper) (f.tokens nameTokens) := by
  have hname : ∀ n ∈ f.references, ∀ rest toks, Closes true rest → Reads vars false rest toks →
      Reads vars true (upper n ++ rest) (nameTokens n ++ toks) := fun n hn _ _ =>
    reads_name (wellFormed_reference hw hn)
  have h := reads hw hname (closes_nil _) .nil
  rwa [List.append_nil, List.append_nil] at h

lemma reads_values
    (hheld : ∀ n ∈ f.references, ∃ k, held? vars n = some k ∧ k ≠ Int64.minValue) :
    Reads vars true (f.text (shown vars)) (f.tokens (valueTokens vars)) := by
  have hvalue : ∀ n ∈ f.references, ∀ rest toks, Closes true rest → Reads vars false rest toks →
      Reads vars true (shown vars n ++ rest) (valueTokens vars n ++ toks) := by
    intro n hn rest toks
    obtain ⟨k, hk, hmin⟩ := hheld n hn
    exact reads_value hk hmin
  have h := reads hw hvalue (closes_nil _) .nil
  rwa [List.append_nil, List.append_nil] at h

end Whole

/-- **A reference stands for the value of its variable.** In a formula on whole numbers it may as
well be the name of the variable, except where the minus sign of a negative value makes a
difference: before a power, for the least number, and if there is no room for it as a token. -/
theorem evaluate_expand_eq {limits : Limits} (hw : f.wellFormed = true)
    (hheld : ∀ n ∈ f.references, ∃ k, vars.value? n = some (.integer k) ∧ k ≠ Int64.minValue)
    (hpower : f.clearOfPowers vars = true)
    (hroom : f.size ≤ limits.maxTokens → f.size + f.negatives vars ≤ limits.maxTokens) :
    ∃ u, expand vars f.source = .ok u ∧
      evaluate vars limits u = evaluate vars limits (f.text upper) := by
  simp only [← held?_eq_some_iff] at hheld
  have hsome : ∀ n ∈ f.references, ∃ k, held? vars n = some k := fun n hn =>
    (hheld n hn).imp fun _ => And.left
  have hspliced : Spliced vars (f.tokens nameTokens) (f.tokens (valueTokens vars)) := by
    have h := spliced_tokens hheld hpower (fun _ => rfl) .nil
    rwa [List.append_nil, List.append_nil] at h
  -- the two texts have the same tokens but for the values
  have hnames : tokenize vars limits (f.text upper) = _ := tokenize_of_reads (reads_names hw) limits
  have hvalues := tokenize_of_reads (reads_values hw hheld) limits
  rw [length_nameTokens] at hnames
  rw [length_valueTokens hsome] at hvalues
  refine ⟨_, expand_source hw hsome, ?_⟩
  by_cases hfits : f.size ≤ limits.maxTokens
  · rw [if_pos hfits] at hnames
    rw [if_pos (hroom hfits)] at hvalues
    exact (evaluate_spliced hnames hvalues hspliced).symm
  · -- both have too many tokens
    rw [if_neg hfits] at hnames
    rw [if_neg (by omega)] at hvalues
    unfold evaluate
    rw [hnames, hvalues]

/-- The whole number that an evaluation gives. -/
def whole? : EStateM.Result EvalError Generator Value → Option Int64
  | .ok (.integer k) _ => some k
  | _ => none

/-- The value of the second variable is negative, and only the first has a power after it. -/
theorem evaluate_expand_eq_negative :
    ∃ (vars : Variables) (f : Formula) (u : Text),
      vars = Variables.set (Variables.set {} "A".toList (.integer 4)) "B".toList (.integer (-3)) ∧
      f.source = ":a^2 MOD(:b) - -:b".toList ∧ f.wellFormed = true ∧
      (∀ n ∈ f.references, ∃ k, vars.value? n = some (.integer k) ∧ k ≠ Int64.minValue) ∧
      f.clearOfPowers vars = true ∧ f.size + f.negatives vars ≤ ({} : Limits).maxTokens ∧
      expand vars f.source = .ok u ∧ u = "4^2 MOD(-3) - --3".toList ∧
      evaluate vars {} u = evaluate vars {} "A^2 MOD(B) - -B".toList ∧
      whole? (evaluate vars {} u default) = some (-2) := by
  obtain ⟨vars, hvars⟩ : ∃ vars : Variables,
      vars = Variables.set (Variables.set {} "A".toList (.integer 4)) "B".toList (.integer (-3)) :=
    ⟨_, rfl⟩
  obtain ⟨f, hf⟩ : ∃ f, f = join
      (join (spaced [] (join (reference "a".toList) .pow (numeral "2".toList)) [' ']) .mod
        (spaced [] (group (reference "b".toList)) [' '])) .sub
      (spaced [' '] (minus (reference "b".toList)) []) := ⟨_, rfl⟩
  have hheld : ∀ n ∈ f.references, ∃ k, vars.value? n = some (.integer k) ∧ k ≠ Int64.minValue := by
    subst hf hvars
    intro n hn
    simp only [references, List.mem_append, List.mem_singleton, List.not_mem_nil, or_false] at hn
    rcases hn with (rfl | rfl) | rfl
    · exact ⟨4, rfl, by decide⟩
    · exact ⟨-3, rfl, by decide⟩
    · exact ⟨-3, rfl, by decide⟩
  have hw : f.wellFormed = true := by
    subst hf
    decide
  have hpower : f.clearOfPowers vars = true := by
    subst hf hvars
    decide
  have hroom : f.size + f.negatives vars ≤ ({} : Limits).maxTokens := by
    subst hf hvars
    decide
  obtain ⟨u, hu, heval⟩ := evaluate_expand_eq hw hheld hpower fun _ => hroom
  have htext : u = "4^2 MOD(-3) - --3".toList := by
    have h : (expand vars f.source).toOption = some "4^2 MOD(-3) - --3".toList := by
      subst hf hvars
      decide +kernel
    rw [hu] at h
    exact Option.some.inj h
  refine ⟨vars, f, u, hvars, by rw [hf]; rfl, hw, hheld, hpower, hroom, hu, htext, ?_, ?_⟩
  · rw [heval, hf]
    rfl
  · subst htext hvars
    decide +kernel

/-- The whole number that an expression with references gives. -/
def resolved? (vars : Variables) (limits : Limits) (t : Text) : Option Int64 :=
  (expand vars t).toOption.bind fun u => whole? (evaluate vars limits u default)

/-- **Where the sign of a value makes a difference.** The square of -3 is not 9, the least number
is no whole number any more, and a sum of two takes more than three tokens. A name that is an
operator stands for a value only as a reference. -/
theorem sign_of_value_matters :
    (resolved? (Variables.set {} "X".toList (.integer (-3))) {} ":X ^ 2".toList = some (-9) ∧
      whole? (evaluate (Variables.set {} "X".toList (.integer (-3))) {} "X ^ 2".toList
        default) = some 9) ∧
    (resolved? (Variables.set {} "X".toList (.integer Int64.minValue)) {} ":X".toList = none ∧
      whole? (evaluate (Variables.set {} "X".toList (.integer Int64.minValue)) {} "X".toList
        default) = some Int64.minValue) ∧
    (resolved? (Variables.set {} "X".toList (.integer (-3))) ⟨3, 64⟩ ":X + 1".toList = none ∧
      whole? (evaluate (Variables.set {} "X".toList (.integer (-3))) ⟨3, 64⟩ "X + 1".toList
        default) = some (-2)) ∧
    resolved? (Variables.set {} "MOD".toList (.integer 5)) {} ":MOD".toList = some 5 ∧
      whole? (evaluate (Variables.set {} "MOD".toList (.integer 5)) {} "MOD".toList
        default) = none := by
  decide +kernel

end Formula

end Courseware.Logo
