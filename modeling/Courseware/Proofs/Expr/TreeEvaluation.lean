import Courseware.Expr.Evaluation
import Courseware.Proofs.Expr.ShuntingYard

/-!
A postfix form run on a stack gives what its tree gives when it is evaluated from left to
right: the same value or the same first error, with the same random numbers drawn.
-/

namespace Courseware.Expr

namespace Tree

mutual

/-- The value of a tree, its parts evaluated from left to right. -/
def eval (vars : Variables) : Tree → Evaluation Value
  | literal v => pure v
  | name n => lift (symbolValue vars n)
  | group t => t.eval vars
  | unary o t => do
    let v ← t.eval vars
    lift (o.apply v)
  | binary o l r => do
    let v ← l.eval vars
    let w ← r.eval vars
    lift (o.apply v w)
  | call f args => do
    let vs ← evals vars args
    if !Builtin.isName f then throw (.unknownSymbol f)
    callFunction f vs

def evals (vars : Variables) : List Tree → Evaluation (List Value)
  | [] => pure []
  | t :: ts => do
    let v ← t.eval vars
    let vs ← evals vars ts
    return v :: vs

end

end Tree

/-! ### The run of a tree's code -/

variable {vars : Variables}

lemma bind_of_ok {α β : Type} {x : Evaluation α} {f : α → Evaluation β} {g g' : Generator}
    {a : α} (h : x g = .ok a g') : (x >>= f) g = f a g' := by
  simp [bind, EStateM.bind, h]

lemma bind_of_error {α β : Type} {x : Evaluation α} {f : α → Evaluation β} {g g' : Generator}
    {e : EvalError} (h : x g = .error e g') : (x >>= f) g = .error e g' := by
  simp [bind, EStateM.bind, h]

/-- Two ways to go on that agree on every outcome of `x` give the same. -/
lemma bind_congr_ok {α β : Type} {x : Evaluation α} {f f' : α → Evaluation β}
    (h : ∀ a g g', x g = .ok a g' → f a = f' a) : (x >>= f) = (x >>= f') := by
  funext g
  cases hx : x g with
  | ok a g' => rw [bind_of_ok hx, bind_of_ok hx, h a g g' hx]
  | error e g' => rw [bind_of_error hx, bind_of_error hx]

lemma lift_map_bind {α β γ : Type} (x : Except EvalError α) (f : α → β)
    (k : β → Evaluation γ) : (lift (x.map f) >>= k) = (lift x >>= fun a => k (f a)) := by
  cases x <;> rfl

lemma runPostfix_cons (i : Instruction) (is : List Instruction) (s : List Value) :
    runPostfix vars (i :: is) s = (i.step vars s >>= runPostfix vars is) := rfl

/-- As many values come out of the arguments as there are arguments. -/
lemma length_of_evals {ts : List Tree} {g g' : Generator} {vs : List Value}
    (h : Tree.evals vars ts g = .ok vs g') : vs.length = ts.length := by
  induction ts generalizing g vs with
  | nil =>
    rw [Tree.evals] at h
    cases h
    rfl
  | cons t ts ih =>
    rw [Tree.evals] at h
    cases ht : t.eval vars g with
    | error e g₁ => rw [bind_of_error ht] at h; cases h
    | ok v g₁ =>
      rw [bind_of_ok ht] at h
      cases hts : Tree.evals vars ts g₁ with
      | error e g₂ => rw [bind_of_error hts] at h; cases h
      | ok ws g₂ =>
        rw [bind_of_ok hts] at h
        cases h
        rw [List.length_cons, List.length_cons, ih hts]

/-- A call finds its arguments on top of the stack, the last one first. -/
lemma callTop_reverse (f : Text) (vs s : List Value) :
    callTop f vs.length (vs.reverse ++ s) = (do
      if !Builtin.isName f then throw (.unknownSymbol f)
      let v ← callFunction f vs
      return v :: s) := by
  have ht : (vs.reverse ++ s).take vs.length = vs.reverse := by simp
  have hd : (vs.reverse ++ s).drop vs.length = s := by simp
  have hl : ¬ (vs.reverse ++ s).length < vs.length := by simp
  unfold callTop
  rw [ht, hd, List.reverse_reverse, if_neg hl]

mutual

/-- The code of a tree, followed by other code, leaves the value of the tree on the stack. -/
theorem runPostfix_postorder (t : Tree) (is : List Instruction) (s : List Value) :
    runPostfix vars (t.postorder ++ is) s =
      (t.eval vars >>= fun v => runPostfix vars is (v :: s)) := by
  cases t with
  | literal v => rfl
  | name n => exact lift_map_bind _ _ _
  | group t => exact runPostfix_postorder t is s
  | unary o t =>
    rw [Tree.postorder, Tree.eval, List.append_assoc, runPostfix_postorder t, bind_assoc]
    congr 1
    funext v
    exact lift_map_bind _ _ _
  | binary o l r =>
    rw [Tree.postorder, Tree.eval, List.append_assoc, List.append_assoc, runPostfix_postorder l,
      bind_assoc]
    congr 1
    funext v
    rw [runPostfix_postorder r, bind_assoc]
    congr 1
    funext w
    exact lift_map_bind _ _ _
  | call f args =>
    rw [Tree.postorder, Tree.eval, List.append_assoc, runPostfix_postorders args, bind_assoc]
    refine bind_congr_ok fun vs g g' h => ?_
    -- a call takes as many values from the stack as it has arguments
    rw [List.singleton_append, runPostfix_cons, ← length_of_evals h]
    show (callTop f vs.length (vs.reverse ++ s) >>= _) = _
    rw [callTop_reverse]
    cases Builtin.isName f with
    | false => rfl
    | true => exact bind_assoc _ _ _

theorem runPostfix_postorders (ts : List Tree) (is : List Instruction) (s : List Value) :
    runPostfix vars (Tree.postorders ts ++ is) s =
      (Tree.evals vars ts >>= fun vs => runPostfix vars is (vs.reverse ++ s)) := by
  cases ts with
  | nil => rfl
  | cons t ts =>
    rw [Tree.postorders, Tree.evals, List.append_assoc, runPostfix_postorder t, bind_assoc]
    congr 1
    funext v
    rw [runPostfix_postorders ts, bind_assoc]
    simp only [pure_bind, List.reverse_cons, List.append_assoc, List.singleton_append]

end

/-- The code of a tree, by itself, gives the value of the tree. -/
lemma runPostfix_postorder_nil (t : Tree) : runPostfix vars t.postorder [] = t.eval vars := by
  calc runPostfix vars t.postorder []
      = runPostfix vars (t.postorder ++ []) [] := by rw [List.append_nil]
    _ = (t.eval vars >>= fun v => runPostfix vars [] [v]) := runPostfix_postorder t [] []
    _ = t.eval vars := bind_pure _

/-! ### No part of a tree is malformed -/

/-- Errors about the form of an expression, whatever its names and values. -/
def EvalError.isFormal : EvalError → Bool
  | tooManyTokens _ => true
  | tooDeep _ => true
  | malformed _ => true
  | _ => false

/-- The outcome finds no fault with the form of an expression. -/
def Sensible {α : Type} (x : Except EvalError α) : Prop := ∀ e, x = .error e → e.isFormal = false

namespace Sensible

variable {α β : Type}

@[simp] lemma ok (a : α) : Sensible (.ok a) := fun _ h => by cases h

@[simp] lemma pure (a : α) : Sensible (Pure.pure a) := fun _ h => by cases h

@[simp] lemma mismatch (e : Mismatch) : Sensible (.error (.mismatch e) : Except EvalError α) :=
  fun _ h => by cases h; rfl

@[simp] lemma throw_mismatch (e : Mismatch) :
    Sensible (throw (.mismatch e) : Except EvalError α) := fun _ h => by cases h; rfl

@[simp] lemma throw_divideByZero : Sensible (throw .divideByZero : Except EvalError α) :=
  fun _ h => by cases h; rfl

@[simp] lemma bind_iff (x : Except EvalError α) (f : α → Except EvalError β) :
    Sensible (x >>= f) ↔ Sensible x ∧ ∀ a, x = .ok a → Sensible (f a) := by
  cases x with
  | error e =>
    refine ⟨fun h => ⟨fun e' he => h e' ?_, fun a ha => by cases ha⟩, fun h e' he => h.1 e' ?_⟩
    · cases he; rfl
    · cases he; rfl
  | ok a => exact ⟨fun h => ⟨ok a, fun _ hb => by cases hb; exact h⟩, fun h => h.2 a rfl⟩

@[simp] lemma map_iff (x : Except EvalError α) (f : α → β) :
    Sensible (x.map f) ↔ Sensible x := by
  cases x with
  | error e =>
    exact ⟨fun h e' he => h e' (by cases he; rfl), fun h e' he => h e' (by cases he; rfl)⟩
  | ok a => exact ⟨fun _ => ok a, fun _ => ok (f a)⟩

@[simp] lemma functor_map_iff (x : Except EvalError α) (f : α → β) :
    Sensible (f <$> x) ↔ Sensible x := map_iff x f

@[simp] lemma ite_iff {p : Prop} [Decidable p] (x y : Except EvalError α) :
    Sensible (if p then x else y) ↔ (p → Sensible x) ∧ (¬ p → Sensible y) := by
  by_cases h : p <;> simp [h]

end Sensible

@[simp] lemma sensible_numeric (o : Operator) (v : Value) : Sensible (numeric o v) := by
  cases v <;> simp [numeric]

@[simp] lemma sensible_floatOperand (o : Operator) (v : Value) :
    Sensible (floatOperand o v) := by
  cases v <;> simp [floatOperand]

@[simp] lemma sensible_arithmetic (o : BinaryOp) (w : Int64 → Int64 → Option Int64)
    (f : Float → Float → Float) (l r : Value) : Sensible (arithmetic o w f l r) := by
  unfold arithmetic
  simp only [Sensible.bind_iff, sensible_numeric, true_and]
  intro a _ b _
  split <;> simp

@[simp] lemma sensible_compare (l r : Value) : Sensible (compare l r) := by
  unfold compare
  split
  · simp
  · simp
  · split
    · split <;> simp
    · simp

lemma sensible_unary (o : UnaryOp) (v : Value) : Sensible (o.apply v) := by
  cases o with
  | not => simp [UnaryOp.apply]
  | pos => simp [UnaryOp.apply]
  | neg => cases v <;> simp [UnaryOp.apply, negate]

lemma sensible_binary (o : BinaryOp) (l r : Value) : Sensible (o.apply l r) := by
  have hadd : Sensible (add l r) := by unfold add; split <;> simp
  have hmod : Sensible (modulo l r) := by
    unfold modulo
    simp only [Sensible.bind_iff, sensible_numeric, true_and]
    intro a _ b _
    split <;> simp
  cases o <;> simp [BinaryOp.apply, relation, power, divide, hadd, hmod]

namespace Builtin

variable (f : Text)

@[simp] lemma sensible_floatArg (v : Value) : Sensible (floatArg f v) := by
  unfold floatArg
  split <;> simp

@[simp] lemma sensible_wordArg (v : Value) : Sensible (wordArg f v) := by
  unfold wordArg
  split <;> simp

@[simp] lemma sensible_oneArg (args : List Value) : Sensible (oneArg f args) := by
  unfold oneArg
  split <;> simp [wrongArity]

@[simp] lemma sensible_twoArgs (args : List Value) : Sensible (twoArgs f args) := by
  unfold twoArgs
  split <;> simp [wrongArity]

lemma sensible_rounding (g : Float → Float) (args : List Value) :
    Sensible (rounding g f args) := by
  simp only [rounding, Sensible.bind_iff, sensible_oneArg, true_and]
  intro v _
  split <;> simp

lemma sensible_absolute (args : List Value) : Sensible (absolute f args) := by
  simp only [absolute, Sensible.bind_iff, sensible_oneArg, true_and]
  intro v _
  split <;> simp

lemma sensible_roundTo (args : List Value) : Sensible (roundTo f args) := by
  unfold roundTo
  split <;> simp [digitsArg, wrongArity]

lemma sensible_middlePart (args : List Value) : Sensible (middlePart f args) := by
  unfold middlePart
  split <;> simp [countArg, wrongArity]

lemma sensible_codeOf (args : List Value) : Sensible (codeOf f args) := by
  simp only [codeOf, Sensible.bind_iff, sensible_oneArg, true_and]
  intro v _
  split <;> simp

lemma sensible_extreme (keep : Ordering) (args : List Value) :
    Sensible (extreme keep f args) := by
  have hbest : ∀ (vs : List Value) (best : Value), Sensible (vs.foldlM (better keep f) best) := by
    intro vs
    induction vs with
    | nil => intro best; simp
    | cons v vs ih =>
      intro best
      simp [better, ih]
  cases args with
  | nil => simp [extreme]
  | cons v vs => simp [extreme, hbest]

end Builtin

/-- Whatever the random numbers, an evaluation finds no fault with the form of an expression. -/
def AlwaysSensible {α : Type} (x : Evaluation α) : Prop :=
  ∀ g g' e, x g = .error e g' → e.isFormal = false

lemma AlwaysSensible.lift {α : Type} {x : Except EvalError α} (h : Sensible x) :
    AlwaysSensible (Expr.lift x) := by
  intro g g' e hx
  cases x with
  | ok a => cases hx
  | error e' =>
    cases hx
    exact h e rfl

lemma AlwaysSensible.bind {α β : Type} {x : Evaluation α} {f : α → Evaluation β}
    (hx : AlwaysSensible x) (hf : ∀ a, AlwaysSensible (f a)) : AlwaysSensible (x >>= f) := by
  intro g g' e h
  cases he : x g with
  | ok a g₁ =>
    rw [bind_of_ok he] at h
    exact hf a g₁ g' e h
  | error e' g₁ =>
    rw [bind_of_error he] at h
    cases h
    exact hx g _ e he

lemma alwaysSensible_drawRandom (f : Text) (args : List Value) :
    AlwaysSensible (Builtin.drawRandom f args) := by
  intro g g' e h
  unfold Builtin.drawRandom at h
  split at h
  · cases h
  · cases h
    rfl

lemma alwaysSensible_apply (b : Builtin) (f : Text) (args : List Value) :
    AlwaysSensible (b.apply f args) := by
  cases b with
  | random => exact alwaysSensible_drawRandom f args
  | abs => exact .lift (Builtin.sensible_absolute f args)
  | floor => exact .lift (Builtin.sensible_rounding f _ args)
  | ceil => exact .lift (Builtin.sensible_rounding f _ args)
  | round => exact .lift (Builtin.sensible_roundTo f args)
  | least => exact .lift (Builtin.sensible_extreme f _ args)
  | greatest => exact .lift (Builtin.sensible_extreme f _ args)
  | middle => exact .lift (Builtin.sensible_middlePart f args)
  | code => exact .lift (Builtin.sensible_codeOf f args)
  | _ =>
    exact .lift (by
      simp [Builtin.floatFunction, Builtin.squareRoot, Builtin.logarithm, Builtin.signOf, power,
        Builtin.leftPart, Builtin.rightPart, Builtin.countArg, Builtin.textFunction,
        Builtin.characterOf])

/-- No function finds fault with the form of an expression. -/
lemma alwaysSensible_callFunction (f : Text) (args : List Value) :
    AlwaysSensible (callFunction f args) := by
  unfold callFunction
  split
  · exact alwaysSensible_apply _ f args
  · intro g g' e h
    cases h
    rfl

lemma sensible_symbolValue (vars : Variables) (n : Text) : Sensible (symbolValue vars n) := by
  unfold symbolValue
  split
  · simp
  · split
    · simp
    · intro e h
      cases h
      rfl

mutual

/-- The parts of a tree have all their operands, so no evaluation finds one missing. -/
theorem alwaysSensible_eval (t : Tree) : AlwaysSensible (t.eval vars) := by
  cases t with
  | literal v => exact fun _ _ _ h => by cases h
  | name n => exact .lift (sensible_symbolValue vars n)
  | group t => exact alwaysSensible_eval t
  | unary o t => exact .bind (alwaysSensible_eval t) fun v => .lift (sensible_unary o v)
  | binary o l r =>
    exact .bind (alwaysSensible_eval l) fun v =>
      .bind (alwaysSensible_eval r) fun w => .lift (sensible_binary o v w)
  | call f args =>
    rw [Tree.eval]
    refine .bind (alwaysSensible_evals args) fun vs => ?_
    cases Builtin.isName f with
    | false => exact fun _ _ _ h => by cases h; rfl
    | true => exact alwaysSensible_callFunction f vs

theorem alwaysSensible_evals (ts : List Tree) : AlwaysSensible (Tree.evals vars ts) := by
  cases ts with
  | nil => exact fun _ _ _ h => by cases h
  | cons t ts =>
    exact .bind (alwaysSensible_eval t) fun v =>
      .bind (alwaysSensible_evals ts) fun vs => fun _ _ _ h => by cases h

end

lemma neverMalformed_eval (t : Tree) (g g' : Generator) (m : Malformed) :
    t.eval vars g ≠ .error (.malformed m) g' := by
  intro h
  cases alwaysSensible_eval t g g' _ h

/-! ### The code of an expression -/

/-- All that is found out about an expression before it is evaluated. -/
def compile (vars : Variables) (limits : Limits) (t : Text) :
    Except EvalError (List Instruction) :=
  (Token.tokenize vars limits t).bind (postfixForm limits)

lemma evaluate_eq_compile (limits : Limits) (t : Text) :
    evaluate vars limits t =
      (lift (compile vars limits t) >>= fun code => runPostfix vars code []) := by
  unfold evaluate compile
  cases Token.tokenize vars limits t <;> rfl

lemma evaluate_of_compile_error {limits : Limits} {t : Text} {e : EvalError}
    (h : compile vars limits t = .error e) (g : Generator) :
    evaluate vars limits t g = .error e g := by
  rw [evaluate_eq_compile, h]
  rfl

/-- Code that was found is the code of a tree, and evaluates to what the tree does. -/
lemma exists_tree_of_compile {limits : Limits} {t : Text} {code : List Instruction}
    (h : compile vars limits t = .ok code) :
    ∃ toks tree, Token.tokenize vars limits t = .ok toks ∧ Tree.parse? toks = some tree ∧
      evaluate vars limits t = tree.eval vars := by
  have heval : evaluate vars limits t = _ := evaluate_eq_compile limits t
  rw [h] at heval
  unfold compile at h
  cases htoks : Token.tokenize vars limits t with
  | error e =>
    rw [htoks] at h
    cases h
  | ok toks =>
    rw [htoks] at h
    obtain ⟨tree, htree, -, rfl⟩ := code?_eq_some_iff.1 ((postfixForm_eq_ok _ _ _).1 h)
    exact ⟨toks, tree, rfl, htree, heval.trans (runPostfix_postorder_nil tree)⟩

/-- **Running the code is evaluating the tree.** The code of an expression gives, for all
variables and from every state of the random numbers, exactly what evaluating its tree from
left to right gives; so it never lacks an operand or an argument and leaves nothing over. -/
theorem runPostfix_eq_eval {limits : Limits} {toks : List Token} {code : List Instruction}
    (h : postfixForm limits toks = .ok code) :
    ∃ t, Tree.parse? toks = some t ∧ ∀ (vars : Variables) (g : Generator),
      runPostfix vars code [] g = t.eval vars g ∧
        ∀ m g', runPostfix vars code [] g ≠ .error (.malformed m) g' := by
  obtain ⟨t, ht, -, rfl⟩ := code?_eq_some_iff.1 ((postfixForm_eq_ok _ _ _).1 h)
  refine ⟨t, ht, fun vars g => ?_⟩
  rw [runPostfix_postorder_nil]
  exact ⟨rfl, fun m g' => neverMalformed_eval t g g' m⟩

/-- `MAX(1, -X) ^ RND()` has code, and that code evaluates its tree. -/
theorem runPostfix_eq_eval_call :
    ∃ code, postfixForm {} [.function "MAX".toList, .openParen, .literal (.integer 1), .comma,
        .operator (.unary .neg), .name "X".toList, .closeParen, .operator (.binary .pow),
        .function "RND".toList, .openParen, .closeParen] = .ok code ∧
      ∃ t, Tree.parse? [.function "MAX".toList, .openParen, .literal (.integer 1), .comma,
          .operator (.unary .neg), .name "X".toList, .closeParen, .operator (.binary .pow),
          .function "RND".toList, .openParen, .closeParen] = some t ∧
        ∀ (vars : Variables) (g : Generator),
          runPostfix vars code [] g = t.eval vars g ∧
            ∀ m g', runPostfix vars code [] g ≠ .error (.malformed m) g' := by
  have h : postfixForm {} [.function "MAX".toList, .openParen, .literal (.integer 1), .comma,
      .operator (.unary .neg), .name "X".toList, .closeParen, .operator (.binary .pow),
      .function "RND".toList, .openParen, .closeParen] =
      .ok [.push (.integer 1), .load "X".toList, .apply (.unary .neg), .call "MAX".toList 2,
        .call "RND".toList 0, .apply (.binary .pow)] := by
    cbv
  exact ⟨_, h, runPostfix_eq_eval h⟩

end Courseware.Expr
