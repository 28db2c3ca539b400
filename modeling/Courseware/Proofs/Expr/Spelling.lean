import Courseware.Proofs.Expr.LetterCase
import Courseware.Proofs.Expr.Scanning

/-!
Tokens that are written with single spaces between them are read back.

What a token is read as hangs on what stands around it: a sign on what comes before, a word on
whether a parenthesis follows. So the tokens must stand where reading could have put them. Each of
them then ends at the space behind it, whatever comes after.
-/

namespace Courseware.Expr.Token

open Text Number

variable {vars : Variables} {due : Bool} {tok : Token} {toks rest : List Token} {n r : Text}

/-- How a token is written. -/
def spelling : Token → Text
  | literal (.text t) => '"' :: (t ++ ['"'])
  | literal v => v.display
  | name n => n
  | function f => f
  | operator o => o.symbol.toList
  | openParen => ['(']
  | closeParen => [')']
  | comma => [',']

/-- The tokens with single spaces between them. -/
def write (toks : List Token) : Text := join [' '] (toks.map spelling)

/-! ### Tokens that can be written -/

/-- The words that are operators. -/
def keywords : List Text := ["AND".toList, "OR".toList, "NOT".toList, "MOD".toList]

/-- A name without the dollar sign at its end. -/
def stem (n : Text) : Text := if n.getLast? = some '$' then n.dropLast else n

/-- A name of capital letters, digits and low lines that is no operator. It does not begin with a
digit, and may end in a dollar sign. -/
def isPlainName (n : Text) : Bool :=
  (stem n).head?.any (fun c => c.isUpper || c == '_') &&
    (stem n).all (fun c => c.isUpper || isDigit c || c == '_') && !keywords.contains n

/-- A token that has a spelling of its own: no float, no negative number, no quote in a text, and
only plain names. -/
def isPlain : Token → Bool
  | literal (.integer n) => 0 ≤ n.toInt
  | literal (.float _) => false
  | literal (.text t) => '"' ∉ t
  | name n => isPlainName n
  | function f => isPlainName f
  | _ => true

def isOpenParen : Token → Bool
  | openParen => true
  | _ => false

def opensParen (toks : List Token) : Bool := toks.head?.any isOpenParen

/-- Whether a token can be read where it stands: `due` tells whether an operand is due there, and
`rest` follows. -/
def fits (due : Bool) (tok : Token) (rest : List Token) : Bool :=
  match tok with
  | function _ => opensParen rest
  | name _ => !opensParen rest
  | operator (.unary .neg) => due
  | operator (.unary .pos) => due
  | operator (.binary .add) => !due
  | operator (.binary .sub) => !due
  | operator (.binary .mul) => !due
  | _ => true

/-- Whether all tokens can be read where they stand, after `prev`. -/
def wellPlaced : Option Token → List Token → Bool
  | _, [] => true
  | prev, tok :: rest => fits (expectsOperand prev) tok rest && wellPlaced (some tok) rest

/-! ### Plain names -/

/-- What can follow a token: nothing, or a space. -/
def Spaced (r : Text) : Prop := ∀ c, r.head? = some c → c = ' '

lemma Spaced.endsName (h : Spaced r) : EndsName r := by
  intro c hc
  rw [h c hc]
  decide

lemma Spaced.endsNumeral (h : Spaced r) : EndsNumeral r := by
  intro c hc
  rw [h c hc]
  decide

lemma isNameStart_of_plain {c : Char} (h : (c.isUpper || c == '_') = true) :
    isNameStart c = true := by
  rw [Bool.or_eq_true, beq_iff_eq] at h
  rcases h with h | rfl
  · have halpha : c.isAlpha = true := by
      delta Char.isAlpha
      rw [h, Bool.true_or]
    rw [isNameStart, isAlphabetic_of_isAlpha halpha, Bool.true_or]
  · rfl

lemma of_plain {c : Char} (h : (c.isUpper || isDigit c || c == '_') = true) :
    isNameChar c = true ∧ c.toUpper = c := by
  by_cases hd : isDigit c = true
  · exact ⟨(isNameChar_of_isDigit hd).2, toUpper_of_isDigit hd⟩
  · have hd : isDigit c = false := by simpa using hd
    rw [hd, Bool.or_false] at h
    refine ⟨isNameChar_of_isNameStart (isNameStart_of_plain h), ?_⟩
    rw [Bool.or_eq_true, beq_iff_eq] at h
    rcases h with h | rfl
    · refine toUpper_of_not_isLower fun hlower => ?_
      have hupper := isUpper_iff.1 h
      rw [isLower_iff] at hlower
      omega
    · rfl

lemma stem_append (n : Text) : stem n = n ∨ n = stem n ++ ['$'] := by
  unfold stem
  split
  · next h => exact .inr (List.dropLast_append_getLast? '$' h).symm
  · exact .inl rfl

lemma splitName_dollar {w : Text} (hw : w.all isNameChar = true) (r : Text) :
    splitName (w ++ '$' :: r) = (w ++ ['$'], r) := by
  have hdollar : ∀ c, ('$' :: r).head? = some c → isNameChar c = false := by
    intro c hc
    cases hc
    decide
  obtain ⟨htake, hdrop⟩ := takeWhile_append_of_all hw hdollar
  unfold splitName
  rw [htake, hdrop]
  rfl

/-- What is read of a plain name. -/
structure Plain (n : Text) : Prop where
  head : ∃ c s, n = c :: s ∧ isNameStart c = true
  splits {r : Text} (hr : Spaced r) : splitName (n ++ r) = (n, r)
  upper : upper n = n
  not_keyword : n ∉ keywords

lemma plain_of_isPlainName (h : isPlainName n = true) : Plain n := by
  simp only [isPlainName, Bool.and_eq_true, Bool.not_eq_true', List.contains_eq_mem,
    decide_eq_false_iff_not] at h
  obtain ⟨⟨hhead, hall⟩, hkeyword⟩ := h
  have hchars : ∀ c ∈ stem n, isNameChar c = true ∧ c.toUpper = c := fun c hc =>
    of_plain (List.all_eq_true.1 hall c hc)
  have hnames : (stem n).all isNameChar = true := List.all_eq_true.2 fun c hc => (hchars c hc).1
  have hupper : Text.upper (stem n) = stem n := upper_eq_self fun c hc => (hchars c hc).2
  obtain ⟨c, s, hs, hc⟩ : ∃ c s, stem n = c :: s ∧ isNameStart c = true := by
    cases hstem : stem n with
    | nil =>
      rw [hstem] at hhead
      cases hhead
    | cons c s =>
      rw [hstem] at hhead
      exact ⟨c, s, rfl, isNameStart_of_plain hhead⟩
  rcases stem_append n with hn | hn
  · rw [hn] at hs hnames hupper
    exact ⟨⟨c, s, hs, hc⟩, fun hr => splitName_append hnames hr.endsName, hupper, hkeyword⟩
  · refine ⟨⟨c, s ++ ['$'], by rw [hn, hs]; rfl, hc⟩, fun hr => ?_, ?_, hkeyword⟩
    · rw [hn, List.append_assoc]
      exact splitName_dollar hnames _
    · rw [hn, upper_append, hupper]
      rfl

lemma Plain.ofWord (hn : Plain n) (r : Text) :
    ofWord n r = if (trimStart r).head? = some '(' then function n else name n := by
  have hkeyword := hn.not_keyword
  simp only [keywords, List.mem_cons, List.not_mem_nil, or_false, not_or] at hkeyword
  obtain ⟨hand, hor, hnot, hmod⟩ := hkeyword
  have hlookup := lookup_wordOperators hand hor hmod
  unfold Token.ofWord
  rw [hn.upper, if_neg hnot, hlookup]

/-- A plain name is a function before a parenthesis, and else a name. -/
lemma Plain.reads (hn : Plain n) (hr : Spaced r)
    (htok : tok = if (trimStart r).head? = some '(' then function n else name n)
    (h : Reads vars (expectsOperand (some tok)) r toks) :
    Reads vars due (n ++ r) (tok :: toks) := by
  obtain ⟨c, s, rfl, hc⟩ := hn.head
  rw [← hn.ofWord] at htok
  subst htok
  exact .splitName hc (hn.splits hr) h

/-! ### One token -/

lemma spaced_iff : Spaced r ↔ r = [] ∨ ∃ s, r = ' ' :: s := by
  cases r with
  | nil => simp [Spaced]
  | cons c r => simp [Spaced]

lemma spelling_integer {n : Int64} (h : 0 ≤ n.toInt) :
    spelling (literal (.integer n)) = decimal n.toInt.natAbs := if_neg (Int.not_lt.2 h)

/-- Operators end at a space. -/
lemma reads_operator {o : Operator} (hfits : fits due (operator o) rest = true) (hr : Spaced r)
    (h : Reads vars true r toks) : Reads vars due (o.symbol.toList ++ r) (operator o :: toks) := by
  have hends := hr.endsName
  cases o with
  | unary u =>
    cases u with
    -- words end at the space, signs need it only where another sign could follow
    | not => exact Reads.word (w := "NOT".toList) rfl hends h
    | neg =>
      cases hfits
      exact .sign h
    | pos =>
      cases hfits
      refine .token rfl ?_ h
      cases r <;> rfl
  | binary b =>
    cases b with
    | and => exact Reads.word (w := "AND".toList) rfl hends h
    | or => exact Reads.word (w := "OR".toList) rfl hends h
    | mod => exact Reads.word (w := "MOD".toList) rfl hends h
    | add =>
      obtain rfl : due = false := by simpa [fits] using hfits
      exact .binary (by decide) (by simp) h
    | sub =>
      obtain rfl : due = false := by simpa [fits] using hfits
      exact .binary (by decide) (by simp) h
    | mul =>
      obtain rfl : due = false := by simpa [fits] using hfits
      exact .binary (by decide) (by simp) h
    | _ =>
      refine .token rfl ?_ h
      rcases spaced_iff.1 hr with rfl | ⟨s, rfl⟩ <;> cases due <;> rfl

/-- A token that is written before a space is read back. -/
lemma reads_spelling (htok : tok.isPlain = true) (hfits : fits due tok rest = true)
    (hr : Spaced r) (hparen : (trimStart r).head? = some '(' ↔ opensParen rest = true)
    (h : Reads vars (expectsOperand (some tok)) r toks) :
    Reads vars due (spelling tok ++ r) (tok :: toks) := by
  cases tok with
  | literal v =>
    cases v with
    | integer n =>
      have hn : 0 ≤ n.toInt := by simpa [isPlain] using htok
      have habs : (n.toInt.natAbs : Int) = n.toInt := by omega
      rw [spelling_integer hn]
      exact .decimal (by rw [habs, word?_toInt]) hr.endsNumeral h
    | float x => cases htok
    | text t =>
      have ht : '"' ∉ t := by simpa [isPlain] using htok
      have hspelling : spelling (literal (.text t)) ++ r = '"' :: (t ++ '"' :: r) := by
        simp [spelling]
      rw [hspelling]
      exact .quoted rfl ht h
  | name n =>
    -- a name before a parenthesis would be a function
    have hopen : ¬ (trimStart r).head? = some '(' := by
      rw [hparen]
      simpa [fits] using hfits
    exact (plain_of_isPlainName htok).reads hr (if_neg hopen).symm h
  | function f =>
    exact (plain_of_isPlainName htok).reads hr (if_pos (hparen.2 hfits)).symm h
  | operator o => exact reads_operator hfits hr h
  | openParen => exact .openParen h
  | closeParen => exact .closeParen h
  | comma =>
    refine .token rfl ?_ h
    cases r <;> cases due <;> rfl

/-! ### All tokens -/

/-- What is written behind a token. -/
def continuation (rest : List Token) : Text := if rest.isEmpty then [] else ' ' :: write rest

lemma write_cons (tok : Token) (rest : List Token) :
    write (tok :: rest) = spelling tok ++ continuation rest := by
  cases rest with
  | nil => exact (List.append_nil _).symm
  | cons u us => exact List.append_assoc _ _ _

lemma spaced_continuation (rest : List Token) : Spaced (continuation rest) := by
  cases rest with
  | nil => simp [Spaced, continuation]
  | cons u us => simp [Spaced, continuation]

/-- The text begins with something else than white space or an opening parenthesis. -/
def Unopened (t : Text) : Prop := ∃ c s, t = c :: s ∧ isBlank c = false ∧ c ≠ '('

lemma Plain.unopened (hn : Plain n) : Unopened n := by
  obtain ⟨c, s, rfl, hc⟩ := hn.head
  refine ⟨c, s, rfl, (of_isNameStart hc).1, ?_⟩
  rintro rfl
  cases hc

lemma unopened_decimal (k : Nat) : Unopened (decimal k) := by
  obtain ⟨c, s, hs⟩ := List.exists_cons_of_ne_nil (decimal_ne_nil k)
  have hc : isDigit c = true := isDigit_of_mem_decimal (hs ▸ List.mem_cons_self)
  refine ⟨c, s, hs, isBlank_of_isDigit hc, ?_⟩
  rintro rfl
  cases hc

lemma unopened_symbol (o : Operator) : Unopened o.symbol.toList := by
  cases o with
  | unary u => cases u <;> exact ⟨_, _, rfl, rfl, by decide⟩
  | binary b => cases b <;> exact ⟨_, _, rfl, rfl, by decide⟩

/-- Of the plain tokens only one begins with an opening parenthesis. -/
lemma unopened_spelling (htok : tok.isPlain = true) (hopen : tok.isOpenParen = false) :
    Unopened (spelling tok) := by
  cases tok with
  | literal v =>
    cases v with
    | integer n =>
      rw [spelling_integer (by simpa [isPlain] using htok)]
      exact unopened_decimal _
    | float x => cases htok
    | text t => exact ⟨'"', t ++ ['"'], rfl, rfl, by decide⟩
  | name n => exact (plain_of_isPlainName htok).unopened
  | function f => exact (plain_of_isPlainName htok).unopened
  | operator o => exact unopened_symbol o
  | openParen => cases hopen
  | closeParen => exact ⟨')', [], rfl, rfl, by decide⟩
  | comma => exact ⟨',', [], rfl, rfl, by decide⟩

lemma trimStart_continuation {rest : List Token} (h : ∀ tok ∈ rest, tok.isPlain = true) :
    (trimStart (continuation rest)).head? = some '(' ↔ opensParen rest = true := by
  cases rest with
  | nil => decide
  | cons u us =>
    have htext : continuation (u :: us) = ' ' :: (spelling u ++ continuation us) := by
      rw [continuation, if_neg (by simp), write_cons]
    rw [htext, trimStart_cons_of_blank rfl]
    have hparen : opensParen (u :: us) = u.isOpenParen := rfl
    cases hopen : u.isOpenParen with
    | true =>
      cases u with
      | openParen => exact iff_of_true rfl rfl
      | _ => cases hopen
    | false =>
      obtain ⟨c, s, hs, hblank, hc⟩ := unopened_spelling (h u List.mem_cons_self) hopen
      rw [hs, List.cons_append, trimStart_cons_of_not_blank hblank, hparen, hopen]
      exact iff_of_false (by simpa using hc) Bool.false_ne_true

lemma reads_write {prev : Option Token} (hplain : ∀ tok ∈ toks, tok.isPlain = true)
    (hplaced : wellPlaced prev toks = true) :
    Reads vars (expectsOperand prev) (write toks) toks := by
  induction toks generalizing prev with
  | nil => exact .nil
  | cons tok rest ih =>
    rw [List.forall_mem_cons] at hplain
    rw [wellPlaced, Bool.and_eq_true] at hplaced
    have hrest : Reads vars (expectsOperand (some tok)) (continuation rest) rest := by
      cases rest with
      | nil => exact .nil
      | cons u us => exact .blank rfl (ih hplain.2 hplaced.2)
    rw [write_cons]
    exact reads_spelling hplain.1 hplaced.1 (spaced_continuation rest)
      (trimStart_continuation hplain.2) hrest

/-- **Reading undoes writing.** -/
theorem tokenize_write {limits : Limits} (hplain : ∀ tok ∈ toks, tok.isPlain = true)
    (hplaced : wellPlaced none toks = true) (hlen : toks.length ≤ limits.maxTokens)
    (vars : Variables) : tokenize vars limits (write toks) = .ok toks := by
  rw [tokenize_of_reads (reads_write hplain hplaced), if_pos hlen]

/-- `F_1$ ( 12 , - E5 ) * "a'(" <> NOT + X` has names and texts that look like other tokens, and
both meanings of a sign. -/
theorem tokenize_write_mixed :
    tokenize {} ⟨14, 0⟩ (write [function "F_1$".toList, openParen, literal (.integer 12), comma,
        operator (.unary .neg), name "E5".toList, closeParen, operator (.binary .mul),
        literal (.text "a'(".toList), operator (.binary .ne), operator (.unary .not),
        operator (.unary .pos), name "X".toList]) =
      .ok [function "F_1$".toList, openParen, literal (.integer 12), comma,
        operator (.unary .neg), name "E5".toList, closeParen, operator (.binary .mul),
        literal (.text "a'(".toList), operator (.binary .ne), operator (.unary .not),
        operator (.unary .pos), name "X".toList] :=
  tokenize_write (by decide) (by decide) (by decide) {}

end Courseware.Expr.Token
