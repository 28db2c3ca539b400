import Courseware.Proofs.Expr.ShuntingYard
import Courseware.Proofs.Expr.TreeEvaluation

/-!
Values in place of names.

An expression keeps its value if names of variables are replaced by the values of the variables,
also if a value is written as a minus sign and the opposite value. Such a sign takes its operand
at once unless a power follows, which would be taken first.
-/

namespace Courseware.Expr

variable {vars : Variables}

/-- The tokens begin with a power. -/
def startsPower : List Token → Bool
  | .operator (.binary .pow) :: _ => true
  | _ => false

/-- The second tokens have values in place of some names of the first. -/
inductive Spliced (vars : Variables) : List Token → List Token → Prop where
  | nil : Spliced vars [] []
  | same {r r' : List Token} (tok : Token) (h : Spliced vars r r') :
      Spliced vars (tok :: r) (tok :: r')
  | value {r r' : List Token} {n : Text} {v : Value} (hv : vars.value? n = some v)
      (h : Spliced vars r r') : Spliced vars (.name n :: r) (.literal v :: r')
  | negated {r r' : List Token} {n : Text} {u v : Value} (hv : vars.value? n = some v)
      (hu : negate u = .ok v) (hp : startsPower r' = false) (h : Spliced vars r r') :
      Spliced vars (.name n :: r) (.operator (.unary .neg) :: .literal u :: r')

/-- Two attempts to find code fail in the same way, or the codes do the same on every stack. -/
inductive Alike (vars : Variables) :
    Except EvalError (List Instruction) → Except EvalError (List Instruction) → Prop where
  | error (e : EvalError) : Alike vars (.error e) (.error e)
  | ok {is js : List Instruction} (h : ∀ s, runPostfix vars is s = runPostfix vars js s) :
      Alike vars (.ok is) (.ok js)

namespace Alike

variable {x y : Except EvalError (List Instruction)}

lemma refl (x : Except EvalError (List Instruction)) : Alike vars x x := by
  cases x with
  | error e => exact .error e
  | ok is => exact .ok fun _ => rfl

/-- Code that does the same may be put in front. -/
lemma map {f g : List Instruction → List Instruction}
    (hf : ∀ is js, (∀ s, runPostfix vars is s = runPostfix vars js s) →
      ∀ s, runPostfix vars (f is) s = runPostfix vars (g js) s)
    (h : Alike vars x y) : Alike vars (x.map f) (y.map g) := by
  cases h with
  | error e => exact .error e
  | ok h => exact .ok (hf _ _ h)

lemma append (is : List Instruction) (h : Alike vars x y) :
    Alike vars (x.map (is ++ ·)) (y.map (is ++ ·)) := by
  refine h.map fun js js' hjs => ?_
  induction is with
  | nil => exact hjs
  | cons i is ih =>
    intro s
    simp only [List.cons_append, runPostfix_cons]
    exact bind_congr fun s' => ih s'

end Alike

lemma runPostfix_load {n : Text} {v : Value} (hv : vars.value? n = some v)
    (is : List Instruction) (s : List Value) :
    runPostfix vars (.load n :: is) s = runPostfix vars is (v :: s) := by
  have hsymbol : symbolValue vars n = .ok v := by
    unfold symbolValue
    rw [hv]
  rw [runPostfix_cons, Instruction.step, hsymbol]
  rfl

lemma runPostfix_negated {u v : Value} (hu : negate u = .ok v) (is : List Instruction)
    (s : List Value) :
    runPostfix vars (.push u :: .apply (.unary .neg) :: is) s = runPostfix vars is (v :: s) := by
  have happly : applyTop (.unary .neg) (u :: s) = .ok (v :: s) := by
    simp only [applyTop, UnaryOp.apply, hu]
    rfl
  have hpush : runPostfix vars (.push u :: .apply (.unary .neg) :: is) s =
      runPostfix vars (.apply (.unary .neg) :: is) (u :: s) := rfl
  rw [hpush, runPostfix_cons, Instruction.step, happly]
  rfl

/-! ### The code of spliced tokens -/

namespace Counted

variable {D d : Nat} {S : List Pending} {st : State} {tok : Token} {r r' : List Token}

lemma convert_of_error {e : EvalError} (h : step D st tok r = .error e) :
    convert D st (tok :: r) = .error e := by
  rw [convert_cons, h]
  rfl

lemma convert_of_ok {is : List Instruction} {st' : State} {s : List Token}
    (h : step D st tok r = .ok (is, st', s)) :
    convert D st (tok :: r) = (convert D st' s).map (is ++ ·) := by
  rw [convert_cons, h]
  rfl

/-- A waiting operator takes its operand before a token that does the same without it. -/
lemma convert_of_applying {o : Operator} {x : Except EvalError (List Instruction × State)}
    (hx : step D ⟨S, d, false⟩ tok r = x.map fun y => (y.1, y.2, r))
    (hx' : step D ⟨.operator o :: S, d, false⟩ tok r =
      (x.map (applying o)).map fun y => (y.1, y.2, r)) :
    convert D ⟨.operator o :: S, d, false⟩ (tok :: r) =
      (convert D ⟨S, d, false⟩ (tok :: r)).map (.apply o :: ·) := by
  rw [convert_cons, convert_cons, hx, hx']
  cases x with
  | error e => rfl
  | ok y =>
    dsimp only [Except.bind, Except.map, applying]
    cases convert D y.2 r <;> rfl

/-- A sign takes its operand at once, unless a power follows. -/
lemma convert_negated (h : startsPower r = false) :
    convert D ⟨.operator (.unary .neg) :: S, d, false⟩ r =
      (convert D ⟨S, d, false⟩ r).map (.apply (.unary .neg) :: ·) := by
  cases r with
  | nil =>
    simp only [convert, finish, Bool.false_eq_true, if_false]
    cases finish S <;> rfl
  | cons tok r =>
    cases tok with
    -- where no operand is due, both fail
    | literal v => rw [convert_of_error rfl, convert_of_error rfl]; rfl
    | name n => rw [convert_of_error rfl, convert_of_error rfl]; rfl
    | function f => rw [convert_of_error rfl, convert_of_error rfl]; rfl
    | openParen => rw [convert_of_error rfl, convert_of_error rfl]; rfl
    | closeParen =>
      exact convert_of_applying (x := close ⟨S, d, false⟩) rfl (by simp only [step, close_operator])
    | comma =>
      exact convert_of_applying (x := separate ⟨S, d, false⟩) rfl
        (by simp only [step, separate_operator])
    | operator p =>
      cases p with
      | unary u => rw [convert_of_error rfl, convert_of_error rfl]; rfl
      | binary b =>
        -- only a power binds more strongly than a sign
        have hlevel : b.precedence < (Operator.unary .neg).level := by
          cases b with
          | pow => cases h
          | _ => decide
        exact convert_of_applying (x := operate (.binary b) ⟨S, d, false⟩) rfl
          (by simp only [step, operate_operator hlevel])

/-- Steps that fail in the same way, or do the same and leave spliced tokens. -/
def StepsAlike (vars : Variables)
    (x y : Except EvalError (List Instruction × State × List Token)) : Prop :=
  (∃ e, x = .error e ∧ y = .error e) ∨
    ∃ is st s s', x = .ok (is, st, s) ∧ y = .ok (is, st, s') ∧ Spliced vars s s'

lemma StepsAlike.keep (h : Spliced vars r r') (x : Except EvalError (List Instruction × State)) :
    StepsAlike vars (x.map fun y => (y.1, y.2, r)) (x.map fun y => (y.1, y.2, r')) := by
  cases x with
  | error e => exact .inl ⟨e, rfl, rfl⟩
  | ok y => exact .inr ⟨y.1, y.2, r, r', rfl, rfl, h⟩

lemma step_bareFunction (hdue : ¬ (!st.due) = true) (f : Text)
    (h : ∀ r', r ≠ .openParen :: r') :
    step D st (.function f) r = .error (.malformed (.missingParenthesis f)) := by
  refine (if_neg hdue).trans ?_
  split
  · next r' => exact absurd rfl (h r')
  · rfl

/-- A token does the same before spliced tokens. A function takes its parenthesis along, which is
never spliced. -/
lemma step_spliced (h : Spliced vars r r') (st : State) (tok : Token) :
    StepsAlike vars (step D st tok r) (step D st tok r') := by
  cases tok with
  | literal v => exact .keep h _
  | name n => exact .keep h _
  | openParen => exact .keep h _
  | closeParen => exact .keep h _
  | comma => exact .keep h _
  | operator o => exact .keep h _
  | function f =>
    -- a function looks at the token after it
    by_cases hdue : (!st.due) = true
    · exact .inl ⟨_, if_pos hdue, if_pos hdue⟩
    have hbare : (∀ s, r ≠ .openParen :: s) → (∀ s, r' ≠ .openParen :: s) →
        StepsAlike vars (step D st (.function f) r) (step D st (.function f) r') := fun hr hr' =>
      .inl ⟨_, step_bareFunction hdue f hr, step_bareFunction hdue f hr'⟩
    have hcall : ∀ s : List Token, step D st (.function f) (.openParen :: s) =
        (enter D (.call f 0) st).map fun y => (y.1, y.2, s) := fun _ => if_neg hdue
    cases h with
    -- a spliced value is never a parenthesis
    | nil => exact hbare (by simp) (by simp)
    | value hv h => exact hbare (by simp) (by simp)
    | negated hv hu hp h => exact hbare (by simp) (by simp)
    | @same s s' tok h =>
      by_cases ho : tok = .openParen
      · subst ho
        rw [hcall s, hcall s']
        exact .keep h _
      · exact hbare (by simp [ho]) (by simp [ho])

/-- **Spliced tokens have code that does the same**, or fail in the same way. -/
theorem convert_spliced {toks toks' : List Token} (h : Spliced vars toks toks') (st : State) :
    Alike vars (convert D st toks) (convert D st toks') := by
  induction hn : toks.length using Nat.strongRecOn generalizing toks toks' st with
  | ind n ih =>
    -- the step consumes at least one token, so strong induction on the length
    subst hn
    cases h with
    | nil => exact .refl _
    | same tok h =>
      rcases step_spliced (D := D) h st tok with ⟨e, he, he'⟩ | ⟨is, st', s, s', hs, hs', hsp⟩
      · rw [convert_of_error he, convert_of_error he']
        exact .error e
      · have hlt := Nat.lt_succ_of_le (length_step hs)
        rw [convert_of_ok hs, convert_of_ok hs']
        exact (ih s.length hlt hsp st' rfl).append is
    | @value r r' n v hv h =>
      rcases st with ⟨S, d, due⟩
      cases due with
      | false =>
        rw [convert_of_error rfl, convert_of_error rfl]
        exact .error _
      | true =>
        -- the value itself stands for its name
        have hrest := ih r.length (Nat.lt_succ_self _) h ⟨S, d, false⟩ rfl
        rw [convert_of_ok rfl, convert_of_ok rfl]
        exact hrest.map fun is js hs s => (runPostfix_load hv is s).trans (hs (v :: s))
    | @negated r r' n u v hv hu hp h =>
      rcases st with ⟨S, d, due⟩
      cases due with
      | false =>
        rw [convert_of_error rfl, convert_of_error rfl]
        exact .error _
      | true =>
        have hrest := ih r.length (Nat.lt_succ_self _) h ⟨S, d, false⟩ rfl
        -- a sign and a literal stand for the name
        have hsign : convert D ⟨S, d, true⟩ (.operator (.unary .neg) :: .literal u :: r') =
            (convert D ⟨S, d, false⟩ r').map (.push u :: .apply (.unary .neg) :: ·) := by
          rw [convert_of_ok rfl, convert_of_ok rfl, convert_negated hp]
          cases convert D ⟨S, d, false⟩ r' <;> rfl
        rw [convert_of_ok rfl, hsign]
        refine hrest.map fun is js hs s => ?_
        rw [List.singleton_append, runPostfix_load hv, runPostfix_negated hu, hs]

end Counted

lemma postfixForm_spliced {limits : Limits} {toks toks' : List Token}
    (h : Spliced vars toks toks') :
    Alike vars (postfixForm limits toks) (postfixForm limits toks') := by
  have hconvert := Counted.convert_spliced (D := limits.maxDepth) h {}
  cases h with
  | nil => exact .refl _
  | _ =>
    rw [postfixForm_cons, postfixForm_cons]
    exact hconvert

/-- **A value may take the place of a name.** -/
theorem evaluate_spliced {limits : Limits} {t t' : Text} {toks toks' : List Token}
    (ht : Token.tokenize vars limits t = .ok toks) (ht' : Token.tokenize vars limits t' = .ok toks')
    (h : Spliced vars toks toks') : evaluate vars limits t = evaluate vars limits t' := by
  have hruns : ∀ x y, Alike vars x y →
      (lift x >>= fun code => runPostfix vars code []) =
        (lift y >>= fun code => runPostfix vars code []) := by
    intro x y hxy
    cases hxy with
    | error e => rfl
    | ok h => exact h []
  unfold evaluate
  rw [ht, ht']
  exact hruns _ _ (postfixForm_spliced h)

end Courseware.Expr
