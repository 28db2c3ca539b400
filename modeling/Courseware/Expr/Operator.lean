import Courseware.Text.Basic

/-!
Operators of expressions: how they are written and how tightly they bind.
-/

namespace Courseware.Expr

inductive UnaryOp where
  | neg
  | pos
  | not
deriving DecidableEq

inductive BinaryOp where
  | add
  | sub
  | mul
  | div
  | mod
  | pow
  | eq
  | ne
  | lt
  | gt
  | le
  | ge
  | and
  | or
deriving DecidableEq

inductive Operator where
  | unary (o : UnaryOp)
  | binary (o : BinaryOp)
deriving DecidableEq

/-- Binding strength; the stronger operator takes an operand between two. -/
def UnaryOp.precedence : UnaryOp → Nat
  | .not => 3
  | .neg => 7
  | .pos => 7

def BinaryOp.precedence : BinaryOp → Nat
  | .or => 1
  | .and => 2
  | .eq => 4
  | .ne => 4
  | .lt => 4
  | .gt => 4
  | .le => 4
  | .ge => 4
  | .add => 5
  | .sub => 5
  | .mul => 6
  | .div => 6
  | .mod => 6
  | .pow => 8

def UnaryOp.symbol : UnaryOp → String
  | .neg => "-"
  | .pos => "+"
  | .not => "NOT"

def BinaryOp.symbol : BinaryOp → String
  | .add => "+"
  | .sub => "-"
  | .mul => "*"
  | .div => "/"
  | .mod => "MOD"
  | .pow => "^"
  | .eq => "="
  | .ne => "<>"
  | .lt => "<"
  | .gt => ">"
  | .le => "<="
  | .ge => ">="
  | .and => "AND"
  | .or => "OR"

namespace Operator

def precedence : Operator → Nat
  | unary o => o.precedence
  | binary o => o.precedence

/-- Only powers group to the right. -/
def groupsRight (o : Operator) : Bool := o = binary .pow

def symbol : Operator → String
  | unary o => o.symbol
  | binary o => o.symbol

end Operator

end Courseware.Expr
