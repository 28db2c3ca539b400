import Courseware.Expr.Builtin
import Courseware.Expr.Postfix

/-!
Evaluation of expressions: tokens, postfix form, then a run on a stack of values.
-/

namespace Courseware.Expr

/-- What a name stands for: a variable, or else a constant. -/
def symbolValue (vars : Variables) (n : Text) : Except EvalError Value :=
  match vars.value? n with
  | some v => .ok v
  | none =>
    match constant? n with
    | some v => .ok v
    | none => .error (.unknownSymbol n)

/-- Applies an operator to the top of the stack. -/
def applyTop (o : Operator) (stack : List Value) : Except EvalError (List Value) :=
  match o, stack with
  | .unary u, v :: s => (u.apply v).map (· :: s)
  | .binary b, r :: l :: s => (b.apply l r).map (· :: s)
  | _, _ => .error (.malformed .missingOperand)

/-- Calls a function with the topmost `argc` values, the last argument on top. -/
def callTop (f : Text) (argc : Nat) (stack : List Value) : Evaluation (List Value) := do
  if !Builtin.isName f then throw (.unknownSymbol f)
  if stack.length < argc then throw (.malformed (.missingArguments f))
  let v ← callFunction f (stack.take argc).reverse
  return v :: stack.drop argc

/-- What one instruction does to the stack. -/
def Instruction.step (vars : Variables) (i : Instruction) (stack : List Value) :
    Evaluation (List Value) :=
  match i with
  | .push v => pure (v :: stack)
  | .load n => lift ((symbolValue vars n).map (· :: stack))
  | .apply o => lift (applyTop o stack)
  | .call f argc => callTop f argc stack

/-- Runs instructions on a stack; exactly one value must be left. -/
def runPostfix (vars : Variables) : List Instruction → List Value → Evaluation Value
  | [], [v] => pure v
  | [], _ => throw (.malformed .leftOver)
  | i :: is, stack => do runPostfix vars is (← i.step vars stack)

/-- The value of an expression. -/
def evaluate (vars : Variables) (limits : Limits) (t : Text) : Evaluation Value := do
  let toks ← lift (Token.tokenize vars limits t)
  let code ← lift (postfixForm limits toks)
  runPostfix vars code []

end Courseware.Expr
