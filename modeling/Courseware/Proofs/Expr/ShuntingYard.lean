import Courseware.Proofs.Expr.CallFrames
import Courseware.Proofs.Expr.Tree

/-!
Reordering tokens with a stack of waiting operators gives the trees of precedence climbing.

The stack is what remains of the calls of the parser that have not returned: a waiting operator
stands for a parser at the level of its right operand, a group or a call for one at the lowest
level. So a parser that returns is an operator that leaves the stack, and the tokens after it
decide both in the same way.
-/

namespace Courseware.Expr

open Courseware.Expr.Tree

/-- The level of the operand that follows an operator. -/
def Operator.level : Operator → Nat
  | .unary u => u.precedence
  | .binary b => b.rightLevel

namespace Counted

open Postfix (bindsBefore)

/-- An operator keeps waiting for the operand after the next operator exactly if the parser of
its operand would read on. -/
lemma bindsBefore_eq (top : Operator) (o : BinaryOp) :
    bindsBefore top (.binary o) = decide (o.precedence < top.level) := by
  rcases top with u | b
  · cases u <;> cases o <;> rfl
  · cases b <;> cases o <;> rfl

lemma one_le_precedence (o : BinaryOp) : 1 ≤ o.precedence := by
  cases o <;> decide

/-- A parser at level `m` reads on at these tokens. -/
def Continues (m : Nat) : List Token → Prop
  | .operator (.binary o) :: _ => m ≤ o.precedence
  | _ => False

lemma extend_stops {m : Nat} {t : Tree} {toks : List Token}
    {b : Tree × { r : List Token // r.length ≤ toks.length }} (h : extend m t toks = some b) :
    ¬ Continues m b.2.1 := by
  rw [extend.eq_def] at h
  split at h
  · -- a binary operator: it is taken, or it binds too weakly
    next o r =>
    split at h
    · cases hc : climb o.rightLevel r with
      | none => simp [hc] at h
      | some a =>
        simp only [hc, Option.map_eq_some_iff] at h
        obtain ⟨b', hb', rfl⟩ := h
        have hs := extend_stops hb'
        exact hs
    · next hm =>
      cases h
      exact hm
  · next hb =>
    cases h
    unfold Continues
    split
    · next o r h => exact absurd h (hb _ _)
    · exact not_false
termination_by toks.length
decreasing_by
  subst toks
  exact Nat.lt_succ_of_lt a.shorter

lemma climb_stops {m : Nat} {toks : List Token} {a : Parsed Tree toks}
    (h : climb m toks = some a) : ¬ Continues m a.rest := by
  rw [climb] at h
  split at h
  · cases h
  · obtain ⟨b, hb, rfl⟩ := Option.map_eq_some_iff.1 h
    exact extend_stops hb

/-! ### The code for the tokens that remain -/

/-- The code for the remaining tokens, if they can be reordered. -/
def code? (maxDepth : Nat) (st : State) (toks : List Token) : Option (List Instruction) :=
  (convert maxDepth st toks).toOption

variable {D : Nat}

lemma code?_nil (st : State) :
    code? D st [] = if st.due then none else (finish st.pending).toOption := by
  unfold code? convert
  split <;> rfl

lemma code?_cons (st : State) (tok : Token) (r : List Token) :
    code? D st (tok :: r) =
      (step D st tok r).toOption.bind fun x => (code? D x.2.1 x.2.2).map (x.1 ++ ·) := by
  unfold code?
  rw [convert_cons]
  cases step D st tok r with
  | error e => rfl
  | ok x =>
    dsimp only [Except.bind, Except.toOption, Option.bind_some]
    cases convert D x.2.1 x.2.2 <;> rfl

/-! ### An operator that leaves the stack -/

variable {S : List Pending} {d : Nat}

/-- The instruction of `o`, in front of what comes out of a step. -/
def applying (o : Operator) (x : List Instruction × State) : List Instruction × State :=
  (.apply o :: x.1, x.2)

lemma close_operator (o : Operator) :
    close ⟨.operator o :: S, d, false⟩ = (close ⟨S, d, false⟩).map (applying o) := by
  simp only [close, drain, Bool.false_eq_true, if_false]
  rcases drain S with ⟨is, _ | ⟨_ | _ | _, s⟩⟩ <;> rfl

lemma separate_operator (o : Operator) :
    separate ⟨.operator o :: S, d, false⟩ = (separate ⟨S, d, false⟩).map (applying o) := by
  simp only [separate, drain, Bool.false_eq_true, if_false]
  rcases drain S with ⟨is, _ | ⟨_ | _ | _, s⟩⟩ <;> rfl

lemma operate_operator {o : Operator} {b : BinaryOp} (h : b.precedence < o.level) :
    operate (.binary b) ⟨.operator o :: S, d, false⟩ =
      (operate (.binary b) ⟨S, d, false⟩).map (applying o) := by
  simp [operate, release, bindsBefore_eq, h, applying, Except.map]

/-- The code after an operator that is applied. -/
lemma code?_applying (o : Operator) (x : Except EvalError (List Instruction × State))
    (r : List Token) :
    (((x.map (applying o)).map fun (is, st) => (is, st, r)).toOption.bind fun y =>
        (code? D y.2.1 y.2.2).map (y.1 ++ ·)) =
      (((x.map fun (is, st) => (is, st, r)).toOption.bind fun y =>
        (code? D y.2.1 y.2.2).map (y.1 ++ ·)).map (.apply o :: ·)) := by
  cases x with
  | error e => rfl
  | ok y =>
    simp only [Except.map, applying, Except.toOption, Option.bind_some, Option.map_map]
    rfl

/-- A waiting operator takes its operand when the parser of that operand has stopped. -/
lemma code?_operator {o : Operator} {toks : List Token} (h : ¬ Continues o.level toks) :
    code? D ⟨.operator o :: S, d, false⟩ toks =
      (code? D ⟨S, d, false⟩ toks).map (.apply o :: ·) := by
  cases toks with
  | nil =>
    simp only [code?_nil, finish, Bool.false_eq_true, if_false]
    cases finish S <;> rfl
  | cons tok r =>
    rw [code?_cons, code?_cons]
    cases tok with
    | literal v => rfl
    | name n => rfl
    | function f => rfl
    | openParen => rfl
    | closeParen =>
      -- the operator is applied first, then the token acts on the stack below it
      simp only [step, close_operator]
      exact code?_applying o _ r
    | comma =>
      simp only [step, separate_operator]
      exact code?_applying o _ r
    | operator p =>
      cases p with
      | unary u => rfl
      | binary b =>
        -- it binds more weakly, or the parser would not have stopped
        simp only [step, operate_operator (Nat.lt_of_not_le h)]
        exact code?_applying o _ r

/-! ### Reading an operand -/

/-- The code when `t` has been read and `toks` remain. -/
def after (D d : Nat) (S : List Pending) (t : Tree) (toks : List Token) :
    Option (List Instruction) :=
  if d + t.nesting ≤ D then (code? D ⟨S, d, false⟩ toks).map (t.postorder ++ ·) else none

lemma after_unary {u : UnaryOp} {t : Tree} {toks : List Token}
    (h : ¬ Continues u.precedence toks) :
    after D d (.operator (.unary u) :: S) t toks = after D d S (.unary u t) toks := by
  have hs := code?_operator (D := D) (S := S) (d := d) (o := .unary u) h
  simp only [after, hs, nesting, postorder, Option.map_map]
  congr 2
  funext is
  simp

lemma after_binary {o : BinaryOp} {l r : Tree} {toks : List Token}
    (h : ¬ Continues o.rightLevel toks) :
    (if d + l.nesting ≤ D then
      (after D d (.operator (.binary o) :: S) r toks).map (l.postorder ++ ·) else none) =
      after D d S (.binary o l r) toks := by
  have hs := code?_operator (D := D) (S := S) (d := d) (o := .binary o) h
  simp only [after, hs, nesting, postorder]
  -- the tree is as deep as the deeper of its two operands
  by_cases hl : d + l.nesting ≤ D
  · by_cases hr : d + r.nesting ≤ D
    · have hm : d + max l.nesting r.nesting ≤ D := by omega
      simp only [hl, hr, hm, if_true, Option.map_map]
      congr 1
      funext is
      simp
    · have hm : ¬ d + max l.nesting r.nesting ≤ D := by omega
      simp [hr, hm]
  · have hm : ¬ d + max l.nesting r.nesting ≤ D := by omega
    simp [hl, hm]

/-- A parser at level `m` may start on this stack. -/
def Fits (m : Nat) (S : List Pending) : Prop := ∀ o s, S = .operator o :: s → o.level ≤ m

/-- These tokens do not close a call without arguments. -/
def AsksOperand (S : List Pending) (toks : List Token) : Prop :=
  ∀ f s r, S = .call f 0 :: s → toks ≠ .closeParen :: r

lemma fits_operator (o : Operator) (S : List Pending) : Fits o.level (.operator o :: S) := by
  rintro _ _ ⟨⟩
  exact Nat.le_refl _

lemma release_eq {m : Nat} {o : BinaryOp} (hf : Fits m S) (hm : m ≤ o.precedence) :
    release (.binary o) S = ([], S) := by
  rcases S with _ | ⟨top | _ | _, s⟩ <;> try rfl
  have := hf top s rfl
  simp only [release, bindsBefore_eq, decide_eq_true_eq]
  rw [if_neg (by omega)]

lemma code?_binary {m : Nat} {o : BinaryOp} {r : List Token} (hf : Fits m S)
    (hm : m ≤ o.precedence) :
    code? D ⟨S, d, false⟩ (.operator (.binary o) :: r) =
      code? D ⟨.operator (.binary o) :: S, d, true⟩ r := by
  simp [code?_cons, step, operate, release_eq hf hm, Except.map, Except.toOption]

/-- The code of a group's end, when the parser of its contents has stopped. -/
lemma code?_group (toks : List Token) : ¬ Continues 1 toks →
    code? D ⟨.group :: S, d + 1, false⟩ toks =
      match toks with
      | .closeParen :: r => code? D ⟨S, d, false⟩ r
      | _ => none := by
  intro h
  cases toks with
  | nil => rw [code?_nil]; rfl
  | cons tok r =>
    rw [code?_cons]
    cases tok with
    | literal v => rfl
    | name n => rfl
    | function f => rfl
    | openParen => rfl
    | closeParen => simp [step, close, drain, Except.map, Except.toOption]
    | comma => rfl
    | operator p =>
      cases p with
      | unary u => rfl
      | binary b =>
        -- the parser would not have stopped here
        exact absurd (one_le_precedence b) h

/-- The code of an argument's end, when the parser of the argument has stopped. -/
lemma code?_argument (f : Text) (n : Nat) (toks : List Token) : ¬ Continues 1 toks →
    code? D ⟨.call f n :: S, d + 1, false⟩ toks =
      match toks with
      | .closeParen :: r => (code? D ⟨S, d, false⟩ r).map (.call f (n + 1) :: ·)
      | .comma :: r => code? D ⟨.call f (n + 1) :: S, d + 1, true⟩ r
      | _ => none := by
  intro h
  cases toks with
  | nil => rw [code?_nil]; rfl
  | cons tok r =>
    rw [code?_cons]
    cases tok with
    | literal v => rfl
    | name n => rfl
    | function f => rfl
    | openParen => rfl
    | closeParen =>
      simp only [step, close, drain, Bool.false_eq_true, if_false]
      rfl
    | comma => simp [step, separate, drain, Except.map, Except.toOption]
    | operator p =>
      cases p with
      | unary u => rfl
      | binary b =>
        -- the parser would not have stopped here
        exact absurd (one_le_precedence b) h

lemma code?_openParen (r : List Token) :
    code? D ⟨S, d, true⟩ (.openParen :: r) =
      if d + 1 ≤ D then code? D ⟨.group :: S, d + 1, true⟩ r else none := by
  rw [code?_cons]
  by_cases h : d + 1 ≤ D
  · simp [step, enter, h, Nat.not_lt.2 h, Except.map, Except.toOption]
  · simp [step, enter, h, Nat.lt_of_not_le h, Except.map, Except.toOption]

lemma code?_function (f : Text) (r : List Token) :
    code? D ⟨S, d, true⟩ (.function f :: .openParen :: r) =
      if d + 1 ≤ D then code? D ⟨.call f 0 :: S, d + 1, true⟩ r else none := by
  rw [code?_cons]
  by_cases h : d + 1 ≤ D
  · simp [step, enter, h, Nat.not_lt.2 h, Except.map, Except.toOption]
  · simp [step, enter, h, Nat.lt_of_not_le h, Except.map, Except.toOption]

lemma code?_emptyCall (f : Text) (r : List Token) :
    code? D ⟨.call f 0 :: S, d + 1, true⟩ (.closeParen :: r) =
      (code? D ⟨S, d, false⟩ r).map (.call f 0 :: ·) := by
  rw [code?_cons]
  rfl

/-- After what a parenthesis encloses, the code is that of the group. -/
lemma after_group {S : List Pending} {d : Nat} {t : Tree} (rest : List Token) :
    ¬ Continues 1 rest →
    after D (d + 1) (.group :: S) t rest =
      match rest with
      | .closeParen :: r => after D d S (.group t) r
      | _ => none := by
  intro h
  have hn : d + 1 + t.nesting = d + (t.nesting + 1) := by omega
  rw [after, code?_group rest h, hn]
  rcases rest with _ | ⟨tok, r⟩
  · simp
  · cases tok with
    | closeParen => rfl
    | _ => simp

/-- After its arguments, the code is that of the call. -/
lemma after_call {S : List Pending} {d : Nat} (f : Text) (ts : List Tree) (rest : List Token) :
    (if d + 1 + nestings ts ≤ D then
      (code? D ⟨S, d, false⟩ rest).map (postorders ts ++ .call f (0 + ts.length) :: ·)
    else none) = after D d S (.call f ts) rest := by
  have hn : d + 1 + nestings ts = d + (nestings ts + 1) := by omega
  simp only [after, nesting, postorder, hn, Nat.zero_add, List.append_assoc,
    List.singleton_append]

/-- Nothing is nested where no depth is left. -/
lemma after_of_not_le {S : List Pending} {d : Nat} (hD : ¬ d + 1 ≤ D) {t : Tree}
    (ht : 1 ≤ t.nesting) (rest : List Token) : after D d S t rest = none := by
  rw [after, if_neg (by omega)]

/-- A function without a parenthesis is no operand. -/
lemma code?_bareFunction {S : List Pending} {d : Nat} (f : Text) {r : List Token}
    (h : ∀ r', r = .openParen :: r' → False) :
    code? D ⟨S, d, true⟩ (.function f :: r) = none ∧ Tree.operand (.function f :: r) = none := by
  have hs : step D ⟨S, d, true⟩ (.function f) r = .error (.malformed (.missingParenthesis f)) := by
    simp only [step, Bool.not_true, Bool.false_eq_true, if_false]
  constructor
  · rw [code?_cons, hs]
    rfl
  · rcases r with _ | ⟨tok, r⟩
    · rw [Tree.operand.eq_def]
    · cases tok with
      | openParen => exact (h r rfl).elim
      | _ => rw [Tree.operand.eq_def]

mutual

/-- Where an operand is due, the code is that of what the parser reads, and of what is left. -/
theorem code?_climb {m : Nat} {S : List Pending} {d : Nat} {toks : List Token} (hd : d ≤ D)
    (hf : Fits m S) (hc : AsksOperand S toks) :
    code? D ⟨S, d, true⟩ toks =
      (climb m toks).bind fun a => after D d S a.result a.rest := by
  rw [code?_operand hd hc, climb]
  cases Tree.operand toks with
  | none => rfl
  | some a =>
    rw [Option.bind_some, after_extend hd hf, Option.bind_map]
    rfl
termination_by (toks.length, 1)
decreasing_by
  · exact Prod.Lex.right _ Nat.zero_lt_one
  · exact Prod.Lex.left _ _ a.shorter

theorem code?_operand {S : List Pending} {d : Nat} {toks : List Token} (hd : d ≤ D)
    (hc : AsksOperand S toks) :
    code? D ⟨S, d, true⟩ toks =
      (Tree.operand toks).bind fun a => after D d S a.result a.rest := by
  match toks with
  | [] => simp [code?_nil, Tree.operand]
  | .literal v :: r =>
    simp [code?_cons, step, operand, Tree.operand, after, nesting, postorder, hd, Except.map,
      Except.toOption]
  | .name n :: r =>
    simp [code?_cons, step, operand, Tree.operand, after, nesting, postorder, hd, Except.map,
      Except.toOption]
  | .closeParen :: r =>
    -- only a call without arguments closes here, and `hc` excludes it
    have hs : close ⟨S, d, true⟩ = .error (.malformed .strayClose) := by
      simp only [close, if_true]
      split
      · next f s => exact absurd rfl (hc f s r rfl)
      · rfl
    simp [code?_cons, step, hs, Tree.operand, Except.map, Except.toOption]
  | .comma :: r => simp [code?_cons, step, separate, Tree.operand, Except.map, Except.toOption]
  | .operator (.binary o) :: r =>
    simp [code?_cons, step, operate, Tree.operand, Except.map, Except.toOption]
  | .operator (.unary u) :: r =>
    -- the sign waits while the parser reads its operand
    have hr : code? D ⟨.operator (.unary u) :: S, d, true⟩ r = _ :=
      code?_climb hd (fits_operator (.unary u) S) (by rintro _ _ _ ⟨⟩)
    have hs : code? D ⟨S, d, true⟩ (.operator (.unary u) :: r) =
        code? D ⟨.operator (.unary u) :: S, d, true⟩ r := by
      simp [code?_cons, step, operate, Except.map, Except.toOption]
    rw [hs, hr, Tree.operand]
    simp only [Operator.level]
    cases hcl : climb u.precedence r with
    | none => rfl
    | some a => exact after_unary (climb_stops hcl)
  | .openParen :: r =>
    -- a group: its contents, then the parenthesis that closes it
    rw [code?_openParen, Tree.operand]
    split
    · next hD =>
      rw [code?_climb (m := 1) hD (by rintro _ _ ⟨⟩) (by rintro _ _ _ ⟨⟩)]
      cases hcl : climb 1 r with
      | none => rfl
      | some a =>
        obtain ⟨t, rest, hlt⟩ := a
        rw [Option.bind_some, after_group rest (climb_stops hcl)]
        rcases rest with _ | ⟨tok, r'⟩
        · rfl
        · cases tok <;> rfl
    · -- one level deeper than is allowed, whatever the group holds
      next hD =>
      split
      · exact (after_of_not_le hD (Nat.le_add_left _ _) _).symm
      · rfl
  | .function f :: r =>
    -- a function: with its parenthesis, or bare
    by_cases ho : ∃ r', r = .openParen :: r'
    · obtain ⟨r, rfl⟩ := ho
      rw [code?_function]
      by_cases hr : ∃ r', r = .closeParen :: r'
      · -- a call without arguments
        obtain ⟨r, rfl⟩ := hr
        rw [code?_emptyCall, Tree.operand, Option.bind_some]
        rfl
      · -- one argument or more
        have hr' : ∀ r', r = .closeParen :: r' → False := fun r' h => hr ⟨r', h⟩
        rw [Tree.operand.eq_6 _ _ hr', Option.bind_map]
        split
        · next hD =>
          rw [code?_arguments hD (by rintro _ _ r' ⟨⟩; exact hr' r')]
          cases arguments r with
          | none => rfl
          | some a => exact after_call f a.result a.rest
        · -- too deep, whatever the arguments are
          next hD =>
          cases arguments r with
          | none => rfl
          | some a => exact (after_of_not_le hD (Nat.le_add_left _ _) _).symm
    · obtain ⟨hs, hp⟩ := code?_bareFunction (S := S) (d := d) (D := D) f
        fun r' h => ho ⟨r', h⟩
      rw [hs, hp]
      rfl
termination_by (toks.length, 0)
decreasing_by
  all_goals subst_vars
  all_goals exact Prod.Lex.left _ _ (by simp only [List.length_cons]; omega)

theorem after_extend {m : Nat} {S : List Pending} {d : Nat} {t : Tree} {toks : List Token}
    (hd : d ≤ D) (hf : Fits m S) :
    after D d S t toks = (extend m t toks).bind fun b => after D d S b.1 b.2.1 := by
  rw [extend.eq_def]
  split
  · next o r =>
    split
    · -- the operator is taken: its right operand is read, and the loop goes on
      next hm =>
      have hr : code? D ⟨.operator (.binary o) :: S, d, true⟩ r = _ :=
        code?_climb hd (fits_operator (.binary o) S) (by rintro _ _ _ ⟨⟩)
      rw [after, code?_binary hf hm, hr]
      simp only [Operator.level]
      cases hcl : climb o.rightLevel r with
      | none => simp
      | some a =>
        rw [Option.bind_some, after_binary (climb_stops hcl), after_extend hd hf,
          Option.bind_map]
        rfl
    · rfl
  · rfl
termination_by (toks.length, 2)
decreasing_by
  all_goals subst toks
  · exact Prod.Lex.left _ _ (by simp)
  · exact Prod.Lex.left _ _ (by have := a.shorter; simp; omega)

theorem code?_arguments {f : Text} {n : Nat} {S : List Pending} {d : Nat} {toks : List Token}
    (hd : d + 1 ≤ D) (hc : AsksOperand (.call f n :: S) toks) :
    code? D ⟨.call f n :: S, d + 1, true⟩ toks =
      (arguments toks).bind fun a =>
        if d + 1 + nestings a.result ≤ D then
          (code? D ⟨S, d, false⟩ a.rest).map
            (postorders a.result ++ .call f (n + a.result.length) :: ·)
        else none := by
  rw [code?_climb (m := 1) hd (by rintro _ _ ⟨⟩) hc, arguments]
  cases hcl : climb 1 toks with
  | none => rfl
  | some a =>
    -- the first argument has been read
    obtain ⟨t, rest, hlt⟩ := a
    rw [Option.bind_some, after, code?_argument f n rest (climb_stops hcl)]
    rcases rest with _ | ⟨tok, r⟩
    · simp
    · cases tok with
      | closeParen =>
        simp [nestings, postorders, Function.comp_def]
      | comma =>
        -- the others are counted on from `n + 1`
        simp only
        rw [code?_arguments hd (by rintro _ _ _ ⟨⟩)]
        cases arguments r with
        | none => simp
        | some a =>
          have hl : n + 1 + a.result.length = n + (t :: a.result).length := by
            rw [List.length_cons]; omega
          simp only [Option.bind_some, Option.map_some, nestings, postorders, hl]
          -- the list is as deep as its deepest argument
          by_cases ht : d + 1 + t.nesting ≤ D
          · by_cases ha : d + 1 + nestings a.result ≤ D
            · have hm : d + 1 + max t.nesting (nestings a.result) ≤ D := by omega
              simp only [ht, ha, hm, if_true, Option.map_map, Function.comp_def,
                List.append_assoc]
            · have hm : ¬ d + 1 + max t.nesting (nestings a.result) ≤ D := by omega
              simp [ha, hm]
          · have hm : ¬ d + 1 + max t.nesting (nestings a.result) ≤ D := by omega
            simp [ht, hm]
      | literal v => simp
      | name n => simp
      | function f => simp
      | openParen => simp
      | operator o => simp
termination_by (toks.length, 2)
decreasing_by
  · exact Prod.Lex.right _ Nat.one_lt_two
  · exact Prod.Lex.left _ _ (Nat.lt_of_succ_lt hlt)

end

/-- At the end of the outermost parser nothing may be left. -/
lemma code?_end (toks : List Token) : ¬ Continues 1 toks →
    code? D ⟨[], d, false⟩ toks =
      match toks with
      | [] => some []
      | _ => none := by
  intro h
  cases toks with
  | nil => rw [code?_nil]; rfl
  | cons tok r =>
    rw [code?_cons]
    cases tok with
    | operator p =>
      cases p with
      | unary u => rfl
      | binary b => exact absurd (one_le_precedence b) h
    | _ => rfl

/-- A whole list of tokens has code exactly if it is parsed, and not nested too deep. -/
lemma code?_eq_parse (toks : List Token) :
    code? D {} toks =
      (parse? toks).bind fun t => if t.nesting ≤ D then some t.postorder else none := by
  rw [code?_climb (m := 1) (Nat.zero_le D) (by rintro _ _ ⟨⟩) (by rintro _ _ _ ⟨⟩), parse?]
  cases hcl : climb 1 toks with
  | none => rfl
  | some a =>
    obtain ⟨t, rest, hlt⟩ := a
    rw [Option.bind_some, after, code?_end rest (climb_stops hcl), Nat.zero_add]
    rcases rest with _ | ⟨tok, r⟩
    · simp
    · simp

end Counted

lemma postfixForm_eq_ok (limits : Limits) (toks : List Token) (code : List Instruction) :
    postfixForm limits toks = .ok code ↔ Counted.code? limits.maxDepth {} toks = some code := by
  have hform : (postfixForm limits toks).toOption = Counted.code? limits.maxDepth {} toks := by
    cases toks with
    | nil => rw [Counted.code?_nil]; rfl
    | cons tok r => rw [postfixForm_cons]; rfl
  rw [← hform]
  cases postfixForm limits toks <;> simp [Except.toOption]

/-- The postfix form is the postorder of the tree, if that is not nested too deep. -/
lemma code?_eq_some_iff {D : Nat} {toks : List Token} {code : List Instruction} :
    Counted.code? D {} toks = some code ↔
      ∃ t, parse? toks = some t ∧ t.nesting ≤ D ∧ code = t.postorder := by
  rw [Counted.code?_eq_parse, Option.bind_eq_some_iff]
  constructor
  · rintro ⟨t, ht, hc⟩
    split at hc
    · next hn =>
      cases hc
      exact ⟨t, ht, hn, rfl⟩
    · cases hc
  · rintro ⟨t, ht, hn, rfl⟩
    exact ⟨t, ht, if_pos hn⟩

/-- **Reordering is precedence climbing.** A list of tokens has a postfix form exactly if it is
parsed as a whole with parentheses and calls nested no deeper than allowed, and the form is
then the postorder of the tree. -/
theorem postfixForm_eq_ok_iff_parse (limits : Limits) (toks : List Token)
    (code : List Instruction) :
    postfixForm limits toks = .ok code ↔
      ∃ t, parse? toks = some t ∧ t.nesting ≤ limits.maxDepth ∧ code = t.postorder := by
  rw [postfixForm_eq_ok, code?_eq_some_iff]

end Courseware.Expr
