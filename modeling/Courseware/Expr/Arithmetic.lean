import Courseware.Expr.Error

/-!
What operators do to values. Whole numbers stay whole as long as the result fits 64 bits and
become floats otherwise; a text takes part only in joining, comparing and logic.
-/

namespace Courseware.Expr

open Number

/-- The operand of an arithmetic operator must be a number. -/
def numeric (o : Operator) : Value → Except EvalError Value
  | .text t => .error (.mismatch (.textOperand o t))
  | v => .ok v

/-- The operand of an arithmetic operator as a float. -/
def floatOperand (o : Operator) : Value → Except EvalError Float
  | .integer n => .ok (ofWord n)
  | .float x => .ok x
  | .text t => .error (.mismatch (.textOperand o t))

def negate : Value → Except EvalError Value
  | .integer n => .ok (((neg? n).map Value.integer).getD (.float (-(ofWord n))))
  | .float x => .ok (.float (-x))
  | .text t => .error (.mismatch (.textOperand (.unary .neg) t))

def UnaryOp.apply : UnaryOp → Value → Except EvalError Value
  | .not, v => .ok (.ofBool !v.truthy)
  | .neg, v => negate v
  | .pos, v => numeric (.unary .pos) v

/-- An operation on two numbers, exact on whole numbers where `word` gives a result. -/
def arithmetic (o : BinaryOp) (word : Int64 → Int64 → Option Int64)
    (float : Float → Float → Float) (l r : Value) : Except EvalError Value := do
  match ← numeric (.binary o) l, ← numeric (.binary o) r with
  | .integer a, .integer b =>
    return ((word a b).map Value.integer).getD (.float (float (ofWord a) (ofWord b)))
  | a, b =>
    return .float (float (← floatOperand (.binary o) a) (← floatOperand (.binary o) b))

/-- The quotient is always a float. -/
def divide (l r : Value) : Except EvalError Value := do
  let a ← floatOperand (.binary .div) l
  let b ← floatOperand (.binary .div) r
  if b == 0 then throw .divideByZero
  return .float (a / b)

/-- The remainder has the sign of the left operand. -/
def modulo (l r : Value) : Except EvalError Value := do
  match ← numeric (.binary .mod) l, ← numeric (.binary .mod) r with
  | .integer a, .integer b =>
    if b = 0 then throw .divideByZero
    return .integer (remainder a b)
  | a, b =>
    let x ← floatOperand (.binary .mod) a
    let y ← floatOperand (.binary .mod) b
    if y == 0 then throw .divideByZero
    return .float (remainderFloat x y)

/-- A power of whole numbers is whole if its exponent fits 32 bits and the result fits. -/
def wholePower? (base exponent : Int64) : Option Int64 :=
  if 0 ≤ exponent.toInt ∧ exponent.toInt < UInt32.size then pow? base exponent.toInt.toNat else none

def power (l r : Value) : Except EvalError Value :=
  arithmetic .pow wholePower? Float.pow l r

/-- The order of two floats, if they have one. -/
def floatOrder? (x y : Float) : Option Ordering :=
  if x < y then some .lt else if x == y then some .eq else if y < x then some .gt else none

/-- The order of two values. Two texts are compared as texts; a text that meets a number must
read as one. -/
def compare (l r : Value) : Except EvalError Ordering :=
  match l, r with
  | .text s, .text t => .ok (Text.order s t)
  | .integer a, .integer b => .ok (Ord.compare a.toInt b.toInt)
  | l, r =>
    match l.toFloat?, r.toFloat? with
    | some x, some y =>
      match floatOrder? x y with
      | some o => .ok o
      | none => .error (.mismatch (.incomparable l r))
    | _, _ => .error (.mismatch (.incomparable l r))

/-- A test on the order of two values. -/
def relation (p : Ordering → Bool) (l r : Value) : Except EvalError Value :=
  (compare l r).map fun o => .ofBool (p o)

def add (l r : Value) : Except EvalError Value :=
  match l, r with
  | .text s, .text t => .ok (.text (s ++ t))
  | l, r => arithmetic .add add? (· + ·) l r

def BinaryOp.apply : BinaryOp → Value → Value → Except EvalError Value
  | .add, l, r => Expr.add l r
  | .sub, l, r => arithmetic .sub sub? (· - ·) l r
  | .mul, l, r => arithmetic .mul mul? (· * ·) l r
  | .div, l, r => divide l r
  | .mod, l, r => modulo l r
  | .pow, l, r => power l r
  | .eq, l, r => relation (· == .eq) l r
  | .ne, l, r => relation (· != .eq) l r
  | .lt, l, r => relation (· == .lt) l r
  | .gt, l, r => relation (· == .gt) l r
  | .le, l, r => relation (· != .gt) l r
  | .ge, l, r => relation (· != .lt) l r
  | .and, l, r => .ok (.ofBool (l.truthy && r.truthy))
  | .or, l, r => .ok (.ofBool (l.truthy || r.truthy))

/-- Applies an operator to one value, which it must take. -/
def Operator.applyUnary : Operator → Value → Except EvalError Value
  | .unary o, v => o.apply v
  | .binary o, _ => .error (.malformed (.notUnary (.binary o)))

/-- Applies an operator to two values, which it must take. -/
def Operator.applyBinary : Operator → Value → Value → Except EvalError Value
  | .binary o, l, r => o.apply l r
  | .unary o, _, _ => .error (.malformed (.notBinary (.unary o)))

end Courseware.Expr
