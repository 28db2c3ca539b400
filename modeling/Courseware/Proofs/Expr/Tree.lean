import Courseware.Expr.Postfix
import Mathlib.Tactic.Lemma

/-!
Expression trees, and how tokens are parsed into them by precedence climbing.

An operand is a prefix operator with its own operand, or a primary. It is extended to the right
by binary operators as long as these bind at least as tightly as the level at which it was
asked for. What is left over is shorter than what was given, and the parser says so in its type.
-/

namespace Courseware.Expr

/-- The tree of an expression. Parentheses around a part are kept. -/
inductive Tree where
  | literal (v : Value)
  | name (n : Text)
  | group (t : Tree)
  | unary (o : UnaryOp) (t : Tree)
  | binary (o : BinaryOp) (l r : Tree)
  | call (f : Text) (args : List Tree)

/-- The level of the right operand. Only powers take another of their kind. -/
def BinaryOp.rightLevel (o : BinaryOp) : Nat :=
  if o = .pow then o.precedence else o.precedence + 1

namespace Tree

mutual

/-- Operands first, from left to right, then what is done with them. -/
def postorder : Tree → List Instruction
  | literal v => [.push v]
  | name n => [.load n]
  | group t => t.postorder
  | unary o t => t.postorder ++ [.apply (.unary o)]
  | binary o l r => l.postorder ++ r.postorder ++ [.apply (.binary o)]
  | call f args => postorders args ++ [.call f args.length]

def postorders : List Tree → List Instruction
  | [] => []
  | t :: ts => t.postorder ++ postorders ts

end

mutual

/-- How deep parentheses and calls are nested. -/
def nesting : Tree → Nat
  | literal _ => 0
  | name _ => 0
  | group t => t.nesting + 1
  | unary _ t => t.nesting
  | binary _ l r => max l.nesting r.nesting
  | call _ args => nestings args + 1

def nestings : List Tree → Nat
  | [] => 0
  | t :: ts => max t.nesting (nestings ts)

end

/-- What is read off the front of `toks`, and the tokens after it. -/
structure Parsed (α : Type) (toks : List Token) where
  result : α
  rest : List Token
  shorter : rest.length < toks.length

mutual

/-- Reads an operand, and after it operators that bind at least as tightly as `m`. -/
def climb (m : Nat) (toks : List Token) : Option (Parsed Tree toks) :=
  match operand toks with
  | none => none
  | some a =>
    (extend m a.result a.rest).map fun b =>
      ⟨b.1, b.2.1, Nat.lt_of_le_of_lt b.2.2 a.shorter⟩
termination_by (toks.length, 1)
decreasing_by
  · exact Prod.Lex.right _ Nat.zero_lt_one
  · exact Prod.Lex.left _ _ a.shorter

/-- Reads a prefix operator with its operand, or a primary. -/
def operand (toks : List Token) : Option (Parsed Tree toks) :=
  match toks with
  | .literal v :: r => some ⟨.literal v, r, by simp⟩
  | .name n :: r => some ⟨.name n, r, by simp⟩
  | .operator (.unary u) :: r =>
    (climb u.precedence r).map fun a =>
      ⟨.unary u a.result, a.rest, Nat.lt_succ_of_lt a.shorter⟩
  | .openParen :: r =>
    match climb 1 r with
    | some ⟨t, .closeParen :: r', h⟩ => some ⟨.group t, r', by simp at h ⊢; omega⟩
    | _ => none
  | .function f :: .openParen :: .closeParen :: r => some ⟨.call f [], r, by simp; omega⟩
  | .function f :: .openParen :: r =>
    (arguments r).map fun a => ⟨.call f a.result, a.rest, by have := a.shorter; simp; omega⟩
  | _ => none
termination_by (toks.length, 0)
decreasing_by all_goals exact Prod.Lex.left _ _ (by simp only [List.length_cons]; omega)

/-- Extends the operand `t` by operators that bind at least as tightly as `m`. -/
def extend (m : Nat) (t : Tree) (toks : List Token) :
    Option (Tree × { r : List Token // r.length ≤ toks.length }) :=
  match toks with
  | .operator (.binary o) :: r =>
    if m ≤ o.precedence then
      match climb o.rightLevel r with
      | none => none
      | some a =>
        (extend m (.binary o t a.result) a.rest).map fun b =>
          (b.1, ⟨b.2.1, by have := a.shorter; have := b.2.2; simp; omega⟩)
    else some (t, ⟨.operator (.binary o) :: r, Nat.le_refl _⟩)
  | toks => some (t, ⟨toks, Nat.le_refl _⟩)
termination_by (toks.length, 2)
decreasing_by
  · exact Prod.Lex.left _ _ (by simp)
  · exact Prod.Lex.left _ _ (by have := a.shorter; simp; omega)

/-- Reads the arguments of a call up to its closing parenthesis; there is at least one. -/
def arguments (toks : List Token) : Option (Parsed (List Tree) toks) :=
  match climb 1 toks with
  | some ⟨t, .closeParen :: r, h⟩ => some ⟨[t], r, by simp at h; omega⟩
  | some ⟨t, .comma :: r, h⟩ =>
    (arguments r).map fun a =>
      ⟨t :: a.result, a.rest, by have := a.shorter; simp at h; omega⟩
  | _ => none
termination_by (toks.length, 2)
decreasing_by
  · exact Prod.Lex.right _ (by omega)
  · exact Prod.Lex.left _ _ (by simp at h; omega)

end

/-- The tree of a list of tokens that is one whole expression. -/
def parse? (toks : List Token) : Option Tree :=
  match climb 1 toks with
  | some ⟨t, [], _⟩ => some t
  | _ => none

end Tree

end Courseware.Expr
