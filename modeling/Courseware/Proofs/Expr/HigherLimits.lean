import Courseware.Proofs.Expr.Spacing
import Courseware.Proofs.Expr.Splicing

/-!
Expressions under two sets of limits.

The limits are looked at in two places, and all they decide there is whether to give up. So whatever
else comes out under some limits comes out under all higher ones. An expression is given up before
any of it is evaluated, and nothing that is evaluated ends like that.
-/

namespace Courseware.Expr

open Text

variable {L L' : Limits} {vars : Variables}

instance : LE Limits := ⟨fun L L' => L.maxTokens ≤ L'.maxTokens ∧ L.maxDepth ≤ L'.maxDepth⟩

/-- The expression was given up for its size. -/
def EvalError.isTooComplex : EvalError → Bool
  | tooManyTokens _ => true
  | tooDeep _ => true
  | _ => false

/-- The outcome under higher limits is the same, unless the expression was given up. -/
def Upheld {α : Type} (x x' : Except EvalError α) : Prop :=
  (∃ e, x = .error e ∧ e.isTooComplex = true) ∨ x' = x

namespace Upheld

variable {α β : Type}

lemma refl (x : Except EvalError α) : Upheld x x := .inr rfl

lemma bind {x x' : Except EvalError α} {f f' : α → Except EvalError β} (hx : Upheld x x')
    (hf : ∀ a, x = .ok a → Upheld (f a) (f' a)) : Upheld (x.bind f) (x'.bind f') := by
  rcases hx with ⟨e, rfl, he⟩ | rfl
  · exact .inl ⟨e, rfl, he⟩
  · cases x' with
    | error e => exact .refl _
    | ok a => exact hf a rfl

lemma map {x x' : Except EvalError α} (hx : Upheld x x') (f : α → β) :
    Upheld (x.map f) (x'.map f) := by
  rcases hx with ⟨e, rfl, he⟩ | rfl
  · exact .inl ⟨e, rfl, he⟩
  · exact .refl _

/-- A test that gives up, at a limit that is no lower. -/
lemma of_test {p p' : Prop} [Decidable p] [Decidable p'] (hp : p' → p) {e e' : EvalError}
    (he : e.isTooComplex = true) {x x' : Except EvalError α} (hx : Upheld x x') :
    Upheld (if p then .error e else x) (if p' then .error e' else x') := by
  by_cases h : p
  · exact .inl ⟨e, if_pos h, he⟩
  · rw [if_neg h, if_neg fun h' => h (hp h')]
    exact hx

end Upheld

/-! ### Tokens -/

namespace Token

lemma upheld_scan (hL : L ≤ L') (prev : Option Token) (count : Nat) (t : Text) :
    Upheld (scan vars L prev count t) (scan vars L' prev count t) := by
  induction hlen : t.length using Nat.strongRecOn generalizing t prev count with
  | ind n ih =>
    subst hlen
    cases t with
    | nil =>
      rw [scan, scan]
      exact .refl _
    | cons c r =>
      by_cases hc : isBlank c = true
      · rw [scan, if_pos hc, scan, if_pos hc]
        exact ih r.length (by simp) prev count r rfl
      · have hc : isBlank c = false := by simpa using hc
        rw [scan_cons hc, scan_cons hc]
        refine .bind (.refl _) fun x hread => ?_
        -- the token is the same under both limits, and shortens the text
        have hshort := length_read hread
        have hrest := ih x.2.length (by rw [List.length_cons]; omega) (some x.1) (count + 1) x.2 rfl
        exact .of_test (fun h => Nat.lt_of_le_of_lt hL.1 h) rfl (hrest.map _)

end Token

/-! ### Postfix form -/

namespace Counted

variable {D D' : Nat}

lemma upheld_enter (hD : D ≤ D') (p : Pending) (st : State) :
    Upheld (enter D p st) (enter D' p st) := by
  unfold enter
  by_cases hdue : (!st.due) = true
  · rw [if_pos hdue, if_pos hdue]
    exact .refl _
  · rw [if_neg hdue, if_neg hdue]
    exact .of_test (fun h => Nat.lt_of_le_of_lt hD h) rfl (.refl _)

/-- Only what opens a parenthesis looks at the limit. -/
lemma upheld_step (hD : D ≤ D') (st : State) (tok : Token) (rest : List Token) :
    Upheld (step D st tok rest) (step D' st tok rest) := by
  cases tok with
  | openParen => exact (upheld_enter hD .group st).map _
  | function f =>
    unfold step
    dsimp only
    split
    · exact .refl _
    · split
      · exact (upheld_enter hD _ st).map _
      · exact .refl _
  | _ => exact .refl _

lemma upheld_convert (hD : D ≤ D') (st : State) (toks : List Token) :
    Upheld (convert D st toks) (convert D' st toks) := by
  induction hlen : toks.length using Nat.strongRecOn generalizing toks st with
  | ind n ih =>
    subst hlen
    cases toks with
    | nil =>
      rw [convert, convert]
      exact .refl _
    | cons tok rest =>
      rw [convert_cons, convert_cons]
      refine .bind (upheld_step hD st tok rest) ?_
      rintro ⟨is, st', rest'⟩ hstep
      have hshort := Nat.lt_succ_of_le (length_step hstep)
      exact (ih rest'.length hshort st' rest' rfl).map _

end Counted

lemma upheld_postfixForm (hL : L ≤ L') (toks : List Token) :
    Upheld (postfixForm L toks) (postfixForm L' toks) := by
  cases toks with
  | nil => exact .refl _
  | cons tok toks =>
    rw [postfixForm_cons, postfixForm_cons]
    exact Counted.upheld_convert hL.2 {} (tok :: toks)

/-! ### Evaluation -/

lemma upheld_compile (hL : L ≤ L') (t : Text) :
    Upheld (compile vars L t) (compile vars L' t) :=
  .bind (Token.upheld_scan hL none 0 t) fun toks _ => upheld_postfixForm hL toks

/-- An expression that is too complex is given up before it is evaluated. -/
lemma compile_of_tooComplex {limits : Limits} {t : Text} {e : EvalError} {g g' : Generator}
    (h : evaluate vars limits t g = .error e g') (he : e.isTooComplex = true) :
    g' = g ∧ compile vars limits t = .error e := by
  cases hcode : compile vars limits t with
  | error e' =>
    cases (evaluate_of_compile_error hcode g).symm.trans h
    exact ⟨rfl, rfl⟩
  | ok code =>
    obtain ⟨toks, tree, -, -, heval⟩ := exists_tree_of_compile hcode
    have hsensible := alwaysSensible_eval tree g g' e (by rw [← heval]; exact h)
    cases e <;> cases he <;> cases hsensible

/-- **Higher limits change nothing but what was given up.** Whatever else an expression evaluates
to, a value or an error, it evaluates to under all higher limits, with the same random numbers
drawn. When it is given up no random numbers were drawn, since there was no code to run. -/
theorem evaluate_of_higher_limits (hL : L ≤ L') (vars : Variables) (t : Text) (g : Generator) :
    ((∀ e g', evaluate vars L t g = .error e g' → e.isTooComplex = false) →
      evaluate vars L' t g = evaluate vars L t g) ∧
    ∀ e g', evaluate vars L t g = .error e g' → e.isTooComplex = true →
      g' = g ∧ compile vars L t = .error e := by
  refine ⟨fun h => ?_, fun e g' => compile_of_tooComplex⟩
  have hupheld : Upheld (compile vars L t) (compile vars L' t) := upheld_compile hL t
  rcases hupheld with ⟨e, hcode, he⟩ | hcode
  · rw [h e g (evaluate_of_compile_error hcode g)] at he
    cases he
  · rw [evaluate_eq_compile, evaluate_eq_compile, hcode]

/-- `(RND())` just fits five tokens and two levels of parentheses, and draws a number. With four
tokens or one level it is given up. -/
theorem evaluate_of_higher_limits_tight :
    (∃ x g, evaluate {} ⟨5, 2⟩ "(RND())".toList (RandomSource.start default (some 3)) =
        .ok (.float x) g ∧ g.drawn = 1 ∧
      evaluate {} ⟨6, 3⟩ "(RND())".toList (RandomSource.start default (some 3)) =
        .ok (.float x) g) ∧
    compile {} ⟨4, 2⟩ "(RND())".toList = .error (.tooManyTokens 4) ∧
    compile {} ⟨5, 1⟩ "(RND())".toList = .error (.tooDeep 1) := by
  obtain ⟨g₀, hg₀⟩ : ∃ g₀, g₀ = RandomSource.start default (some 3) := ⟨_, rfl⟩
  have hdrawn : g₀.drawn = 0 := hg₀ ▸ rfl
  rw [← hg₀]
  have hcode : compile {} ⟨5, 2⟩ "(RND())".toList = .ok [.call "RND".toList 0] := by
    with_unfolding_all rfl
  have hfits : evaluate {} ⟨5, 2⟩ "(RND())".toList g₀ = .ok (.float g₀.draw.1) g₀.draw.2 := by
    rw [evaluate_eq_compile, hcode]
    rfl
  have hlong : evaluate {} ⟨4, 2⟩ "(RND())".toList g₀ = .error (.tooManyTokens 4) g₀ := by
    with_unfolding_all rfl
  have hdeep : evaluate {} ⟨5, 1⟩ "(RND())".toList g₀ = .error (.tooDeep 1) g₀ := by
    with_unfolding_all rfl
  have hL : ∀ m n, m ≤ 6 → n ≤ 3 → (⟨m, n⟩ : Limits) ≤ ⟨6, 3⟩ := fun _ _ => And.intro
  refine ⟨⟨_, _, hfits, congrArg (· + 1) hdrawn, ?_⟩, ?_, ?_⟩
  · refine ((evaluate_of_higher_limits (hL 5 2 (by decide) (by decide)) _ _ _).1 ?_).trans hfits
    intro e g' h
    cases hfits.symm.trans h
  · exact ((evaluate_of_higher_limits (hL 4 2 (by decide) (by decide)) _ _ _).2 _ _ hlong rfl).2
  · exact ((evaluate_of_higher_limits (hL 5 1 (by decide) (by decide)) _ _ _).2 _ _ hdeep rfl).2

end Courseware.Expr
