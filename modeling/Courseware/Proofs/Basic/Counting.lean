import Courseware.Basic.Execution
import Courseware.Proofs.Machine.Composition
import Courseware.Proofs.Number.WordOrder
import Courseware.Proofs.Text.Canonical
import Mathlib.Tactic.IntervalCases
import Mathlib.Tactic.Ring

/-!
How often a counting loop runs.

A loop over whole numbers is left when `NEXT` has taken its variable past the limit. The test is
made on floats, which order the numbers at hand as they are ordered, so the number of passes is a
matter of whole numbers. A loop with a step of zero counts as descending and does not move: whether
it ever ends is decided by where it starts.
-/

namespace Courseware.Basic

open Text Exec Number

variable {env : Environment} {m m' : Machine} {name var start limit t : Text}
  {step : Option Text} {f : Loop} {outer : List Loop} {a b s v w : Int64}

/-! ### Entering a loop -/

/-- The value of the step, which is one if it is not given. -/
def stride : Option Text → Exec Value
  | some t => evaluate t
  | none => pure (.integer 1)

/-- The expressions of a loop have whole numbers as their values. -/
def Bounds (env : Environment) (m : Machine) (start limit : Text) (step : Option Text)
    (a b s : Int64) (m' : Machine) : Prop :=
  ∃ m₁ m₂, evaluate start env m = .ok (.integer a) m₁ ∧
    evaluate limit env m₁ = .ok (.integer b) m₂ ∧ stride step env m₂ = .ok (.integer s) m'

lemma loopNumber_eq (h : evaluate t env m = .ok (.integer a) m') :
    loopNumber t env m = .ok (.integer a) m' := by
  have hfatally : fatally (evaluate t) env m = .ok (.integer a) m' := by rw [fatally, h]
  exact bind_of_ok hfatally

lemma loops_of_evaluate {x : Value} (h : evaluate t env m = .ok x m') : m'.loops = m.loops := by
  unfold evaluate at h
  split at h
  · cases h
    rfl
  · cases h

lemma Bounds.loops_eq (h : Bounds env m start limit step a b s m') : m'.loops = m.loops := by
  obtain ⟨m₁, m₂, hstart, hlimit, hstep⟩ := h
  have hstride : m'.loops = m₂.loops := by
    cases step with
    | some t => exact loops_of_evaluate hstep
    | none =>
      cases hstep
      rfl
  rw [hstride, loops_of_evaluate hlimit, loops_of_evaluate hstart]

/-- A loop over `var` between whole numbers. -/
def counting (var : Text) (b s : Int64) (body : Nat) : Loop := ⟨var, .integer b, .integer s, body⟩

lemma forLoop_eq (h : Bounds env m start limit step a b s m') :
    forLoop name start limit step env m =
      .ok .next (Machine.setVariable { m' with
        loops := counting (canonical name) b s (env.index + 1) ::
          outerLoops (canonical name) m'.loops } (canonical name) (.integer a)) := by
  obtain ⟨m₁, m₂, hstart, hlimit, hstep⟩ := h
  unfold forLoop
  rw [bind_of_ok (loopNumber_eq hstart), bind_of_ok (loopNumber_eq hlimit)]
  cases step with
  | some t =>
    dsimp only
    rw [bind_of_ok (loopNumber_eq hstep)]
    rfl
  | none =>
    cases hstep
    rfl

lemma outerLoops_of_fresh (h : ∀ f ∈ outer, f.var ≠ var) : outerLoops var outer = outer := by
  have hany : outer.any (·.var = var) = false := by
    rw [List.any_eq_false]
    simpa using h
  rw [outerLoops, hany]
  rfl

/-- The variable `var` is `v`, and the loops are `loops`. -/
structure At (var : Text) (v : Int64) (loops : List Loop) (m : Machine) : Prop where
  value : m.vars.value? var = some (.integer v)
  loops : m.loops = loops

lemma at_setVariable {loops : List Loop} (h : m.loops = loops) :
    At var v loops (m.setVariable var (.integer v)) where
  value := (Variables.value?_set ..).trans (if_pos rfl)
  loops := h

/-- `FOR` puts the loop on top of the others and starts its variable. -/
lemma exists_forLoop_eq (h : Bounds env m start limit step a b s m')
    (hfresh : ∀ f ∈ m.loops, f.var ≠ canonical name) :
    ∃ m₀, forLoop name start limit step env m = .ok .next m₀ ∧
      At (canonical name) a (counting (canonical name) b s (env.index + 1) :: m.loops) m₀ := by
  refine ⟨_, forLoop_eq h, ?_⟩
  rw [h.loops_eq, outerLoops_of_fresh hfresh]
  exact at_setVariable rfl

/-! ### One pass -/

/-- The value `v` lies past the limit `b` of a loop with the step `s`; a step of zero counts as
descending. -/
def Past (b s v : ℤ) : Prop := if 0 < s then b < v else v < b

instance (b s v : ℤ) : Decidable (Past b s v) := inferInstanceAs (Decidable (ite _ _ _))

/-- A loop past its limit moves further away from it. -/
lemma Past.add_step {b s v : ℤ} (h : Past b s v) : Past b s (v + s) := by
  unfold Past at h ⊢
  split at h
  · rw [if_pos ‹_›]
    omega
  · rw [if_neg ‹_›]
    omega

lemma step_pos_iff : (0 : Float) < ofWord s ↔ 0 < s.toInt := by
  have hzero : (0 : Float) = ofWord 0 := rfl
  rw [hzero, ofWord_lt_iff comparable_zero]
  rfl

/-- The test on floats is a test on whole numbers. -/
lemma goesOn_counting {body : Nat} (h : Comparable w b) :
    goesOn (counting var b s body) (.integer w) =
      some (!decide (Past b.toInt s.toInt w.toInt)) := by
  change some (if 0 < ofWord s then decide (ofWord w ≤ ofWord b)
    else decide (ofWord b ≤ ofWord w)) = _
  simp only [step_pos_iff, ofWord_le_iff h, ofWord_le_iff h.symm, Past]
  by_cases hs : 0 < s.toInt
  · simp [hs, ← decide_not]
  · simp [hs, ← decide_not]

/-- `NEXT` with this name, or with none, is for the innermost loop if that runs over `var`. -/
def Closes (name var : Text) : Prop := name = [] ∨ canonical name = var

/-- What `NEXT` does to the innermost loop. -/
lemma next_eq {again : Bool} {x y : Value} (hname : Closes name f.var)
    (hloops : m.loops = f :: outer) (hvalue : m.vars.value? f.var = some x)
    (hadd : Expr.BinaryOp.add.apply x f.step = .ok y) (hgoes : goesOn f y = some again) :
    next name env m = .ok (if again then .jump f.body else .next)
      (Machine.setVariable { m with loops := if again then f :: outer else outer } f.var y) := by
  -- the loop that is named is the innermost one
  have hframes : (if name = [] then m.loops else m.loops.dropWhile (·.var ≠ canonical name)) =
      f :: outer := by
    rw [hloops]
    rcases hname with rfl | hname
    · rw [if_pos rfl]
    · simp [hname]
  have hlook : valueOf? f.var env { m with loops := f :: outer } =
      .ok (some x) { m with loops := f :: outer } := congrArg (EStateM.Result.ok · _) hvalue
  have hsum : ∀ n, fatally (ofEval (Expr.BinaryOp.add.apply x f.step)) env n = .ok y n := by
    intro n
    rw [hadd]
    rfl
  unfold next
  refine (bind_of_ok (a := m) rfl).trans ?_
  rw [hframes]
  refine (bind_of_ok (a := ()) rfl).trans ((bind_of_ok hlook).trans ?_)
  refine (bind_of_ok (hsum _)).trans ((bind_of_ok (a := ()) rfl).trans ?_)
  rw [hgoes]
  cases again <;> rfl

/-- Whole numbers whose sum fits are added exactly. -/
lemma add_integer (h : add? v s = some w) :
    Expr.BinaryOp.add.apply (.integer v) (.integer s) = .ok (.integer w) := by
  change Except.ok (((add? v s).map Value.integer).getD _) = _
  rw [h]
  rfl

/-- What one `NEXT` does to a loop over whole numbers. -/
lemma next_counting {body : Nat} (env : Environment) (hname : Closes name var)
    (h : At var v (counting var b s body :: outer) m) (hw : w.toInt = v.toInt + s.toInt)
    (hexact : Comparable w b) :
    ∃ m', next name env m =
        .ok (if Past b.toInt s.toInt w.toInt then .next else .jump body) m' ∧
      At var w (if Past b.toInt s.toInt w.toInt then outer else counting var b s body :: outer)
        m' := by
  have hadd : add? v s = some w := by rw [add?, ← hw, word?_toInt]
  have hnext : next name env m = _ :=
    next_eq (f := counting var b s body) hname h.loops h.value (add_integer hadd)
      (goesOn_counting hexact)
  by_cases hpast : Past b.toInt s.toInt w.toInt
  · rw [decide_eq_true hpast] at hnext
    rw [if_pos hpast, if_pos hpast]
    exact ⟨_, hnext, at_setVariable rfl⟩
  · rw [decide_eq_false hpast] at hnext
    rw [if_neg hpast, if_neg hpast]
    exact ⟨_, hnext, at_setVariable rfl⟩

/-! ### Many passes -/

/-- Neither the variable `var` nor the loops have been changed. -/
structure Untouched (var : Text) (m m' : Machine) : Prop where
  value : m'.vars.value? var = m.vars.value? var
  loops : m'.loops = m.loops

lemma At.aside {loops : List Loop} (h : At var v loops m) (hm : Untouched var m m') :
    At var v loops m' :=
  ⟨hm.value.trans h.value, hm.loops.trans h.loops⟩

/-- The machine `m` is reached from `m₀` by `k` times `NEXT` for the loop over `var`, with anything
between them that leaves the variable and the loops alone. -/
inductive Passed (var : Text) (m₀ : Machine) : ℕ → Machine → Prop where
  | entered : Passed var m₀ 0 m₀
  | aside {k : ℕ} {m m' : Machine} (h : Passed var m₀ k m) (hm : Untouched var m m') :
      Passed var m₀ k m'
  | next {k : ℕ} {m m' : Machine} {name : Text} {env : Environment} {d : Directive}
      (h : Passed var m₀ k m) (hname : Closes name var)
      (hnext : Basic.next name env m = .ok d m') : Passed var m₀ (k + 1) m'

/-- How many passes a loop makes whose step is not zero. -/
def passes (a b s : Int64) : ℕ := (max 1 ((b.toInt - a.toInt).fdiv s.toInt + 1)).toNat

lemma fdiv_lt_iff {x y k : ℤ} (hy : y ≠ 0) :
    x.fdiv y < k ↔ if 0 < y then x < k * y else k * y < x := by
  rcases hy.lt_or_gt with hneg | hpos
  · rw [if_neg (by omega), ← Int.neg_fdiv_neg, Int.fdiv_eq_ediv_of_nonneg _ (by omega),
      Int.ediv_lt_iff_lt_mul (by omega), mul_neg, neg_lt_neg_iff]
  · rw [if_pos hpos, Int.fdiv_eq_ediv_of_nonneg _ hpos.le, Int.ediv_lt_iff_lt_mul hpos]

/-- The value `a + k * s` is past the limit when all the passes have been made. -/
lemma past_iff {k : ℕ} (hs : s.toInt ≠ 0) (hk : 0 < k) :
    Past b.toInt s.toInt (a.toInt + k * s.toInt) ↔ passes a b s ≤ k := by
  have hcount : passes a b s ≤ k ↔ (b.toInt - a.toInt).fdiv s.toInt < k := by
    unfold passes
    omega
  rw [hcount, fdiv_lt_iff hs, Past]
  split <;> omega

lemma exists_word {z : ℤ} (hlo : -2 ^ 63 ≤ z) (hhi : z < 2 ^ 63) : ∃ w : Int64, w.toInt = z :=
  ⟨Int64.ofInt z, Int64.toInt_ofInt_of_le hlo hhi⟩

lemma passes_pos : 0 < passes a b s := by
  unfold passes
  omega

/-- A loop whose step is not zero and whose numbers floats hold exactly: its limit, its step and
every value of its variable, up to the first one past the limit. -/
structure Exact (a b s : Int64) : Prop where
  step_ne : s.toInt ≠ 0
  limit_le : |b.toInt| ≤ 2 ^ 53
  step_le : |s.toInt| ≤ 2 ^ 53
  value_le (k : ℕ) : (∀ j < k, ¬Past b.toInt s.toInt (a.toInt + j * s.toInt)) →
    |a.toInt + k * s.toInt| ≤ 2 ^ 53

/-- The next value fits, and floats keep it apart from the limit. -/
lemma Exact.exists_next {k : ℕ} (h : Exact a b s) (hk : k < passes a b s) :
    ∃ w : Int64, w.toInt = a.toInt + (k + 1 : ℕ) * s.toInt ∧ Comparable w b := by
  have hb := abs_le.1 h.limit_le
  by_cases hpast : Past b.toInt s.toInt a.toInt
  · -- the loop begins past its limit and makes one pass; the bound on values ends with `a`
    have hs := abs_le.1 h.step_le
    have ha : |a.toInt| ≤ 2 ^ 53 := by simpa using h.value_le 0 (by simp)
    rw [abs_le] at ha
    have hone : Past b.toInt s.toInt (a.toInt + (1 : ℕ) * s.toInt) := by
      simpa using hpast.add_step
    have hlast := (past_iff h.step_ne one_pos).1 hone
    obtain rfl : k = 0 := by omega
    obtain ⟨w, hw⟩ := exists_word (z := a.toInt + (0 + 1 : ℕ) * s.toInt) (by omega) (by omega)
    refine ⟨w, hw, ?_⟩
    unfold Past at hpast
    unfold Comparable Apart
    split at hpast <;> omega
  · -- so far no value was past the limit, so the next one is still bounded
    have hbefore : ∀ j < k + 1, ¬Past b.toInt s.toInt (a.toInt + j * s.toInt) := by
      intro j hj
      cases j with
      | zero => simpa using hpast
      | succ j =>
        rw [past_iff h.step_ne (by omega)]
        omega
    have hvalue := h.value_le (k + 1) hbefore
    have hfits := abs_le.1 hvalue
    obtain ⟨w, hw⟩ := exists_word (z := a.toInt + (k + 1 : ℕ) * s.toInt) (by omega) (by omega)
    rw [← hw] at hvalue
    exact ⟨w, hw, comparable_of_abs_le hvalue h.limit_le⟩

/-- The variable has been counted `k` times, and the loop is there as long as passes are left. -/
def Counted (var : Text) (body : Nat) (outer : List Loop) (a b s : Int64) (k : ℕ) (m : Machine) :
    Prop :=
  ∃ v : Int64, v.toInt = a.toInt + k * s.toInt ∧
    At var v (if k < passes a b s then counting var b s body :: outer else outer) m

/-- A loop that has just been entered has made no pass. -/
lemma Counted.of_at {body : Nat} (h : At var a (counting var b s body :: outer) m) :
    Counted var body outer a b s 0 m :=
  ⟨a, by simp, by rwa [if_pos passes_pos]⟩

/-- What one pass does: the count goes one further. -/
lemma Counted.next {body : Nat} {k : ℕ} (env : Environment) (hexact : Exact a b s)
    (hname : Closes name var) (h : Counted var body outer a b s k m) (hk : k < passes a b s) :
    ∃ m', Basic.next name env m = .ok (if k + 1 < passes a b s then .jump body else .next) m' ∧
      Counted var body outer a b s (k + 1) m' := by
  obtain ⟨v, hv, hat⟩ := h
  obtain ⟨w, hw, happart⟩ := hexact.exists_next hk
  rw [if_pos hk] at hat
  have hsum : w.toInt = v.toInt + s.toInt := by
    rw [hw, hv]
    push_cast
    ring
  have hpast : Past b.toInt s.toInt w.toInt ↔ ¬k + 1 < passes a b s := by
    rw [hw, past_iff hexact.step_ne k.succ_pos, not_lt]
  obtain ⟨m', hnext, hat'⟩ := next_counting env hname hat hsum happart
  simp only [hpast, ite_not] at hnext hat'
  exact ⟨m', hnext, w, hw, hat'⟩

/-- What many passes do, by induction on what has been run. -/
lemma Counted.of_passed {body : Nat} {k : ℕ} {m₀ : Machine} (hexact : Exact a b s)
    (h₀ : Counted var body outer a b s 0 m₀) (h : Passed var m₀ k m) (hk : k ≤ passes a b s) :
    Counted var body outer a b s k m := by
  induction h with
  | entered => exact h₀
  | aside _ hm ih =>
    obtain ⟨v, hv, hat⟩ := ih hk
    exact ⟨v, hv, hat.aside hm⟩
  | next _ hname hnext ih =>
    obtain ⟨m', hnext', hcounted⟩ := (ih (by omega)).next _ hexact hname hk
    rw [hnext] at hnext'
    cases hnext'
    exact hcounted

lemma past_zero_iff {z : ℤ} : Past b.toInt (0 : Int64).toInt z ↔ z < b.toInt := Iff.rfl

/-- Such a loop is left at once below its limit, and never left otherwise. -/
lemma next_zero {body : Nat} (env : Environment) (hname : Closes name var)
    (ha : |a.toInt| ≤ 2 ^ 53) (hb : |b.toInt| ≤ 2 ^ 53)
    (h : At var a (counting var b 0 body :: outer) m) :
    ∃ m', next name env m = .ok (if a.toInt < b.toInt then .next else .jump body) m' ∧
      At var a (if a.toInt < b.toInt then outer else counting var b 0 body :: outer) m' := by
  have hsum : a.toInt = a.toInt + (0 : Int64).toInt := (add_zero _).symm
  simpa only [past_zero_iff] using next_counting env hname h hsum (comparable_of_abs_le ha hb)

/-- Such a loop stays as it was entered, until it is left. -/
lemma At.of_passed {body k : ℕ} {m₀ : Machine} (ha : |a.toInt| ≤ 2 ^ 53) (hb : |b.toInt| ≤ 2 ^ 53)
    (h₀ : At var a (counting var b 0 body :: outer) m₀) (h : Passed var m₀ k m)
    (hk : k = 0 ∨ b.toInt ≤ a.toInt) : At var a (counting var b 0 body :: outer) m := by
  induction h with
  | entered => exact h₀
  | aside _ hm ih => exact (ih hk).aside hm
  | next _ hname hnext ih =>
    have hle : b.toInt ≤ a.toInt := by omega
    obtain ⟨m', hnext', hat⟩ := next_zero _ hname ha hb (ih (.inr hle))
    rw [hnext] at hnext'
    cases hnext'
    rwa [if_neg hle.not_gt] at hat

/-- **A loop with a step of zero makes one pass or never ends.** It is left at its first `NEXT` if
the start is below the limit. Otherwise every `NEXT`, however many there have been, goes back to the
line behind the `FOR`. -/
theorem zero_step_once_or_forever (h : Bounds env m start limit step a b 0 m')
    (ha : |a.toInt| ≤ 2 ^ 53) (hb : |b.toInt| ≤ 2 ^ 53)
    (hfresh : ∀ f ∈ m.loops, f.var ≠ canonical name) :
    ∃ m₀, forLoop name start limit step env m = .ok .next m₀ ∧
      (a.toInt < b.toInt → ∀ m₁, Passed (canonical name) m₀ 0 m₁ →
        ∀ name' env', Closes name' (canonical name) →
          ∃ m₂, next name' env' m₁ = .ok .next m₂ ∧ At (canonical name) a m.loops m₂) ∧
      (b.toInt ≤ a.toInt → ∀ k m₁, Passed (canonical name) m₀ k m₁ →
        ∀ name' env', Closes name' (canonical name) →
          ∃ m₂, next name' env' m₁ = .ok (.jump (env.index + 1)) m₂ ∧
            At (canonical name) a (counting (canonical name) b 0 (env.index + 1) :: m.loops)
              m₂) := by
  obtain ⟨m₀, hfor, h₀⟩ := exists_forLoop_eq h hfresh
  refine ⟨m₀, hfor, fun hlt m₁ hpassed name' env' hname => ?_,
    fun hle k m₁ hpassed name' env' hname => ?_⟩
  · simpa only [if_pos hlt] using
      next_zero env' hname ha hb (h₀.of_passed ha hb hpassed (.inl rfl))
  · simpa only [if_neg hle.not_gt] using
      next_zero env' hname ha hb (h₀.of_passed ha hb hpassed (.inr hle))

/-- From one to three the loop ends, and from five to five it does not. -/
theorem zero_step_once_or_forever_closed :
    Bounds ⟨{}, {}, 7⟩ default "1".toList "3".toList (some "0".toList) 1 3 0 default ∧
    Bounds ⟨{}, {}, 7⟩ default "5".toList "5".toList (some "0".toList) 5 5 0 default ∧
    (∃ m₀, forLoop "I".toList "1".toList "3".toList (some "0".toList) ⟨{}, {}, 7⟩ default =
        .ok .next m₀ ∧
      ∀ m₁, Passed "I".toList m₀ 0 m₁ → ∀ name' env', Closes name' "I".toList →
        ∃ m₂, next name' env' m₁ = .ok .next m₂ ∧ At "I".toList 1 [] m₂) ∧
    ∃ m₀, forLoop "I".toList "5".toList "5".toList (some "0".toList) ⟨{}, {}, 7⟩ default =
        .ok .next m₀ ∧
      ∀ k m₁, Passed "I".toList m₀ k m₁ → ∀ name' env', Closes name' "I".toList →
        ∃ m₂, next name' env' m₁ = .ok (.jump 8) m₂ ∧
          At "I".toList 5 [counting "I".toList 5 0 8] m₂ := by
  have hup : Bounds ⟨{}, {}, 7⟩ default "1".toList "3".toList (some "0".toList) 1 3 0 default :=
    ⟨_, _, by with_unfolding_all rfl, by with_unfolding_all rfl, by with_unfolding_all rfl⟩
  have heven : Bounds ⟨{}, {}, 7⟩ default "5".toList "5".toList (some "0".toList) 5 5 0 default :=
    ⟨_, _, by with_unfolding_all rfl, by with_unfolding_all rfl, by with_unfolding_all rfl⟩
  have hfresh : ∀ f ∈ (default : Machine).loops, f.var ≠ canonical "I".toList := by decide
  refine ⟨hup, heven, ?_, ?_⟩
  · obtain ⟨m₀, hfor, hends, -⟩ := zero_step_once_or_forever hup (by decide) (by decide) hfresh
    exact ⟨m₀, hfor, hends (by decide)⟩
  · obtain ⟨m₀, hfor, -, hstays⟩ := zero_step_once_or_forever heven (by decide) (by decide) hfresh
    exact ⟨m₀, hfor, hstays (by decide)⟩

/-- From three to one by zero, the first `NEXT` goes back, and the loop is still there. -/
theorem zero_step_goes_back :
    ∃ m₀ m₁, forLoop "I".toList "3".toList "1".toList (some "0".toList) ⟨{}, {}, 0⟩ default =
        .ok .next m₀ ∧
      next "I".toList ⟨{}, {}, 2⟩ m₀ = .ok (.jump 1) m₁ ∧
      m₁.loops = [counting "I".toList 1 0 1] := by
  obtain ⟨m₀, hfor, hat⟩ : ∃ m₀, forLoop "I".toList "3".toList "1".toList (some "0".toList)
      ⟨{}, {}, 0⟩ default = .ok .next m₀ ∧ At "I".toList 3 [counting "I".toList 1 0 1] m₀ :=
    exists_forLoop_eq
      ⟨_, _, by with_unfolding_all rfl, by with_unfolding_all rfl, by with_unfolding_all rfl⟩
      (by decide)
  have hname : Closes "I".toList "I".toList := .inr rfl
  obtain ⟨m₁, hnext, hat'⟩ := next_zero ⟨{}, {}, 2⟩ hname (by decide) (by decide) hat
  exact ⟨m₀, m₁, hfor, hnext, hat'.loops⟩

end Courseware.Basic
