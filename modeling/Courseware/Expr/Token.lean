import Courseware.Expr.Error
import Courseware.Text.Letter
import Courseware.Variables

/-!
The tokens of an expression and the scan that finds them. Signs and asterisks are read by
what stands before them: where an operand is due, `+` and `-` are signs and `*NAME*` is the
value of a variable.
-/

namespace Courseware.Expr

open Text Number

inductive Token where
  | literal (v : Value)
  | name (n : Text)
  | function (n : Text)
  | operator (o : Operator)
  | openParen
  | closeParen
  | comma

/-- Bounds on the size of an expression. -/
structure Limits where
  maxTokens : Nat := 1000
  maxDepth : Nat := 64
deriving DecidableEq

namespace Token

/-- Whether an operand is due after the given token, or at the beginning. -/
def expectsOperand : Option Token → Bool
  | none => true
  | some (operator _) => true
  | some openParen => true
  | some comma => true
  | some (function _) => true
  | some _ => false

/-- Splits off a sign. -/
def splitSign : Text → Text × Text
  | '+' :: r => (['+'], r)
  | '-' :: r => (['-'], r)
  | r => ([], r)

/-- Splits off an exponent with at least one digit. -/
def splitExponent (t : Text) : Text × Text :=
  match t with
  | [] => ([], t)
  | e :: r =>
    let digits := (splitSign r).2.takeWhile isDigit
    if (e = 'e' ∨ e = 'E') ∧ digits ≠ [] then
      (e :: (splitSign r).1 ++ digits, (splitSign r).2.dropWhile isDigit)
    else ([], t)

/-- Splits off a point and the digits after it. -/
def splitFraction (t : Text) : Text × Text :=
  match t with
  | '.' :: r => ('.' :: r.takeWhile isDigit, r.dropWhile isDigit)
  | _ => ([], t)

/-- The value of a numeral: whole if it has neither point nor exponent and fits 64 bits. -/
def numeralValue (whole fraction exponent : Text) : Value :=
  let n := if fraction ++ exponent = [] then word? (digitsValue whole) else none
  match n with
  | some n => .integer n
  | none => .float ((readUnsigned? (whole ++ fraction ++ exponent)).getD nan)

/-- Reads the numeral that a text begins with. -/
def readNumeral (t : Text) : Value × Text :=
  let whole := t.takeWhile isDigit
  let (fraction, rest) := splitFraction (t.dropWhile isDigit)
  let (exponent, rest) := splitExponent rest
  (numeralValue whole fraction exponent, rest)

/-- The operators that are written as words. -/
def wordOperators : List (Text × BinaryOp) :=
  [("AND".toList, .and), ("OR".toList, .or), ("MOD".toList, .mod)]

/-- The token of a word, given what follows it: a word before a parenthesis is a function. -/
def ofWord (w rest : Text) : Token :=
  let u := upper w
  if u = "NOT".toList then operator (.unary .not)
  else
    match wordOperators.lookup u with
    | some o => operator (.binary o)
    | none => if (trimStart rest).head? = some '(' then function u else name u

/-- Characters allowed in a name between asterisks. -/
def isReferenceChar (c : Char) : Bool := isNameChar c || c == '$'

/-- Reads `NAME*` after an asterisk, as the value of the variable. -/
def readReference (vars : Variables) (t : Text) : Except EvalError (Token × Text) :=
  match cut? '*' t with
  | none => .error (.malformed .strayAsterisk)
  | some (n, r) =>
    if n ≠ [] ∧ n.all isReferenceChar then
      match vars.value? n with
      | some v => .ok (literal v, r)
      | none => .error (.unknownSymbol (upper n))
    else .error (.malformed .strayAsterisk)

/-- Symbols of two characters. -/
def pairSymbols : List ((Char × Char) × BinaryOp) :=
  [(('<', '='), .le), (('<', '>'), .ne), (('>', '='), .ge), (('=', '='), .eq), (('!', '='), .ne)]

/-- Symbols of one character, apart from signs. -/
def singleSymbols : List (Char × Token) :=
  [('+', operator (.binary .add)), ('-', operator (.binary .sub)),
    ('*', operator (.binary .mul)), ('/', operator (.binary .div)),
    ('%', operator (.binary .mod)), ('^', operator (.binary .pow)),
    ('=', operator (.binary .eq)), ('<', operator (.binary .lt)),
    ('>', operator (.binary .gt)), ('(', openParen), (')', closeParen), (',', comma)]

/-- The symbol that begins with `c`, where `due` tells whether an operand is due. -/
def readSymbol (due : Bool) (c : Char) (r : Text) : Except EvalError (Token × Text) :=
  match r.head?.bind (fun d => pairSymbols.lookup (c, d)) with
  | some o => .ok (operator (.binary o), r.tail)
  | none =>
    if due ∧ c = '+' then .ok (operator (.unary .pos), r)
    else if due ∧ c = '-' then .ok (operator (.unary .neg), r)
    else
      match singleSymbols.lookup c with
      | some tok => .ok (tok, r)
      | none => .error (.malformed (.strayCharacter c))

/-- A numeral begins with a digit, or with a point before a digit. -/
def startsNumeral (c : Char) (r : Text) : Bool := isDigit c || (c == '.' && r.head?.any isDigit)

/-- Reads the token that begins with the character `c`, which is not white space. -/
def read (vars : Variables) (due : Bool) (c : Char) (r : Text) :
    Except EvalError (Token × Text) :=
  if startsNumeral c r then
    let (v, rest) := readNumeral (c :: r)
    .ok (literal v, rest)
  else if c = '"' ∨ c = '\'' then
    match cut? c r with
    | some (t, rest) => .ok (literal (.text t), rest)
    | none => .error (.malformed .unterminatedText)
  else if isNameStart c then
    let (w, rest) := splitName (c :: r)
    .ok (ofWord w rest, rest)
  else if c = '*' ∧ due then readReference vars r
  else readSymbol due c r

theorem length_splitSign (t : Text) : (splitSign t).2.length ≤ t.length := by
  unfold splitSign
  split <;> simp

theorem length_splitExponent (t : Text) : (splitExponent t).2.length ≤ t.length := by
  unfold splitExponent
  split
  · simp
  · next e r =>
    dsimp only
    split
    · have h₁ := length_dropWhile_le isDigit (splitSign r).2
      have h₂ := length_splitSign r
      simp only [List.length_cons]
      omega
    · simp

theorem length_splitFraction (t : Text) : (splitFraction t).2.length ≤ t.length := by
  unfold splitFraction
  split
  · next r =>
    have := length_dropWhile_le isDigit r
    simp only [List.length_cons]
    omega
  · simp

theorem length_readNumeral {c : Char} {r : Text} (h : startsNumeral c r = true) :
    (readNumeral (c :: r)).2.length ≤ r.length := by
  have he := length_splitExponent (splitFraction ((c :: r).dropWhile isDigit)).2
  have hs : (readNumeral (c :: r)).2 =
      (splitExponent (splitFraction ((c :: r).dropWhile isDigit)).2).2 := rfl
  rw [hs]
  refine Nat.le_trans he ?_
  by_cases hd : isDigit c = true
  · rw [List.dropWhile_cons, if_pos hd]
    exact Nat.le_trans (length_splitFraction _) (length_dropWhile_le isDigit r)
  · -- a point takes its place as the first character
    have hc : c = '.' := by
      simp only [startsNumeral, Bool.or_eq_true, hd, Bool.and_eq_true, beq_iff_eq] at h
      rcases h with h | h
      · cases h
      · exact h.1
    subst hc
    rw [List.dropWhile_cons, if_neg hd]
    exact length_dropWhile_le isDigit r

theorem length_readReference {vars : Variables} {t rest : Text} {tok : Token}
    (h : readReference vars t = .ok (tok, rest)) : rest.length ≤ t.length := by
  unfold readReference at h
  split at h
  · cases h
  · next n r hc =>
    have := length_of_cut? hc
    split at h
    · split at h
      · cases h
        omega
      · cases h
    · cases h

theorem length_readSymbol {due : Bool} {c : Char} {r rest : Text} {tok : Token}
    (h : readSymbol due c r = .ok (tok, rest)) : rest.length ≤ r.length := by
  unfold readSymbol at h
  split at h
  · cases h
    simp
  · split at h
    · cases h
      exact Nat.le_refl _
    · split at h
      · cases h
        exact Nat.le_refl _
      · split at h
        · cases h
          exact Nat.le_refl _
        · cases h

/-- A token takes at least one character. -/
theorem length_read {vars : Variables} {due : Bool} {c : Char} {r rest : Text} {tok : Token}
    (h : read vars due c r = .ok (tok, rest)) : rest.length ≤ r.length := by
  unfold read at h
  split at h
  · next hn =>
    have := length_readNumeral hn
    cases h
    exact this
  · split at h
    · split at h
      · next hc =>
        have := length_of_cut? hc
        cases h
        omega
      · cases h
    · split at h
      · next hn =>
        have := length_splitName (r := r) (isNameChar_of_isNameStart hn)
        cases h
        exact this
      · split at h
        · exact length_readReference h
        · exact length_readSymbol h

/-- Reads the tokens of a text after `prev`, where `count` tokens have been read before. -/
def scan (vars : Variables) (limits : Limits) (prev : Option Token) (count : Nat) (t : Text) :
    Except EvalError (List Token) :=
  match t with
  | [] => .ok []
  | c :: r =>
    if isBlank c then scan vars limits prev count r
    else
      match _h : read vars (expectsOperand prev) c r with
      | .error e => .error e
      | .ok (tok, rest) =>
        if limits.maxTokens < count + 1 then .error (.tooManyTokens limits.maxTokens)
        else
          match scan vars limits (some tok) (count + 1) rest with
          | .error e => .error e
          | .ok toks => .ok (tok :: toks)
termination_by t.length
decreasing_by
  · simp
  · have := length_read _h
    simp only [List.length_cons]
    omega

/-- The tokens of an expression. -/
def tokenize (vars : Variables) (limits : Limits) (t : Text) : Except EvalError (List Token) :=
  scan vars limits none 0 t

end Token

end Courseware.Expr
