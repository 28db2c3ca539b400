import Courseware.Expr.Operator
import Courseware.Value

/-!
What can go wrong with an expression, and the words for it.
-/

namespace Courseware.Expr

/-- Ways in which a text is no expression. -/
inductive Malformed where
  | unterminatedText
  | strayAsterisk
  | strayCharacter (c : Char)
  | empty
  | missingOperator
  | missingParenthesis (function : Text)
  | missingLeft (o : BinaryOp)
  | missingArgument
  | strayComma
  | strayClose
  | unbalanced
  | endsEarly
  | notUnary (o : Operator)
  | notBinary (o : Operator)
  | missingOperand
  | missingArguments (function : Text)
  | leftOver
  | noLoop

/-- Ways in which a value is of the wrong kind. -/
inductive Mismatch where
  | textOperand (o : Operator) (t : Text)
  | incomparable (l r : Value)
  | arity (function : Text) (least most given : Nat)
  | noArguments (function : Text)
  | notNumber (taker : Text) (v : Value)
  | notInteger (function : Text) (v : Value)
  | negativeRoot (function : Text) (x : Float)
  | nonPositiveLog (function : Text) (x : Float)
  | roundDigits (function : Text) (d : Int64)
  | noCharacter (code : Int64)
  | emptyText
  | loopBound (v : Value)
  | loopVariable
  | notCount (v : Value)

inductive EvalError where
  | unknownSymbol (name : Text)
  | tooManyTokens (limit : Nat)
  | tooDeep (limit : Nat)
  | divideByZero
  | mismatch (m : Mismatch)
  | malformed (m : Malformed)

/-- The most decimal places that a float can be scaled by. -/
def maxRoundDigits : Nat := 308

def Malformed.message : Malformed → String
  | unterminatedText => "unterminated string literal"
  | strayAsterisk => "unexpected `*`"
  | strayCharacter c => s!"unexpected character `{c}`"
  | empty => "empty expression"
  | missingOperator => "missing operator between operands"
  | missingParenthesis f => s!"expected `(` after {Text.str f}"
  | missingLeft o => s!"operator `{o.symbol}` is missing its left operand"
  | missingArgument => "missing function argument"
  | strayComma => "unexpected `,`"
  | strayClose => "unexpected `)`"
  | unbalanced => "unbalanced parentheses"
  | endsEarly => "expression ends with an operator"
  | notUnary o => s!"`{o.symbol}` is not a unary operator"
  | notBinary o => s!"`{o.symbol}` is not a binary operator"
  | missingOperand => "operator is missing an operand"
  | missingArguments f => s!"missing arguments for {Text.str f}"
  | leftOver => "malformed expression"
  | noLoop => "expected `FOR var = start TO limit [STEP step]`"

/-- How a value is quoted in messages. -/
def shown (v : Value) : String := Text.str v.display

def Mismatch.message : Mismatch → String
  | textOperand o t => s!"`{o.symbol}` cannot be applied to text `{Text.str t}`"
  | incomparable l r =>
    s!"cannot compare {l.kind} `{shown l}` with {r.kind} `{shown r}`"
  | arity f least most given =>
    let expected := if least = most then s!"{least}" else s!"{least} to {most}"
    s!"{Text.str f} expects {expected} argument(s), got {given}"
  | noArguments f => s!"{Text.str f} expects at least 1 argument"
  | notNumber f v => s!"{Text.str f} needs a number, got `{shown v}`"
  | notInteger f v => s!"{Text.str f} needs an integer, got `{shown v}`"
  | negativeRoot f x => s!"{Text.str f} of negative number {Text.str (Number.plain x)}"
  | nonPositiveLog f x => s!"{Text.str f} of non-positive number {Text.str (Number.plain x)}"
  | roundDigits f d =>
    s!"{Text.str f} digits must be between -{maxRoundDigits} and {maxRoundDigits}, got {d.toInt}"
  | noCharacter code => s!"CHR$ code {code.toInt} is not a character"
  | emptyText => "ASC of empty text"
  | loopBound v => s!"FOR needs numbers, got `{shown v}`"
  | loopVariable => "loop variable is no longer a number"
  | notCount v => s!"expected a number, got `{shown v}`"

def EvalError.message : EvalError → String
  | unknownSymbol n => s!"unknown symbol `{Text.str n}`"
  | tooManyTokens n => s!"expression too complex: more than {n} tokens"
  | tooDeep n => s!"expression too complex: nesting deeper than {n}"
  | divideByZero => "division by zero"
  | mismatch m => s!"type mismatch: {m.message}"
  | malformed m => s!"syntax error: {m.message}"

end Courseware.Expr
