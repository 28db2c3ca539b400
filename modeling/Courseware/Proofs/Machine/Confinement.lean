import Courseware.Proofs.Machine.Composition
import Courseware.Proofs.Program.Places
import Courseware.Proofs.Text.Canonical
import Mathlib.Data.List.Nodup

/-!
Control that stays within a program.

The places that a machine remembers, to return to them or to go through a loop once more, are
places of the program or the end of it. Computations that keep this up are put together from
such computations, where what is known of the result of the first may be used for the second.
-/

namespace Courseware

/-- A loop that can be gone through in the program: it begins there, it counts in numbers, and
the name of its variable is in canonical form. -/
structure Loop.Within (p : Program) (l : Loop) : Prop where
  body_le : l.body ≤ p.size
  limit : l.limit.isNumeric = true
  step : l.step.isNumeric = true
  named : Text.canonical l.var = l.var

/-- Everything that control remembers of places is within the program. -/
structure Control.Within (p : Program) (c : Control) : Prop where
  returns : ∀ i ∈ c.returns, 1 ≤ i ∧ i ≤ p.size
  loops : ∀ l ∈ c.loops, l.Within p
  /-- No variable has two loops. -/
  distinct : (c.loops.map (·.var)).Nodup
  dataRead_le : c.dataRead ≤ p.data.length

def Directive.Within (p : Program) : Directive → Prop
  | .jump i => i ≤ p.size
  | _ => True

namespace Exec

variable {α β : Type} {p : Program}

/-- Quiet computations touch nothing of control but the random numbers. -/
lemma Quiet.control_eq {x : Exec α} (hx : Quiet x) (env : Environment) (m : Machine) :
    ∃ g, (final (x env m)).control = { m.control with random := g } := by
  induction hx generalizing m with
  | pure a => exact ⟨m.random, rfl⟩
  | fail e h => exact ⟨m.random, rfl⟩
  | observe f => exact ⟨m.random, rfl⟩
  | consult f => exact ⟨m.random, rfl⟩
  | readLine prompt => exact ⟨m.random, rfl⟩
  | @bind _ _ x f _ _ ihx ihf =>
    obtain ⟨g, hg⟩ := ihx m
    cases hr : x env m with
    | ok a m' =>
      rw [hr] at hg
      obtain ⟨g', hg'⟩ := ihf a m'
      refine ⟨g', ?_⟩
      rw [bind_of_ok hr, hg']
      exact congrArg (fun c : Control => { c with random := g' }) hg
    | error e m' =>
      rw [hr] at hg
      rw [bind_of_error hr]
      exact ⟨g, hg⟩
  | @fatally _ x _ ih =>
    obtain ⟨g, hg⟩ := ih m
    refine ⟨g, ?_⟩
    rw [fatally_eq]
    obtain ⟨o, ho⟩ := final_finish (fun _ n => n) ExecError.toFatal (x env m)
    rw [ho]
    exact hg
  | evaluate t =>
    unfold Exec.evaluate
    split
    · next v g _ => exact ⟨g, rfl⟩
    · next e g _ => exact ⟨g, rfl⟩
  | request r =>
    unfold Exec.request
    dsimp only
    split <;> exact ⟨m.random, rfl⟩

/-- A computation came out with control within the program, and if with a result, then with one
as `Q` says. -/
def Settled (p : Program) (Q : α → Prop) (r : EStateM.Result ExecError Machine α) : Prop :=
  (final r).control.Within p ∧ ∀ a m, r = .ok a m → Q a

lemma settled_finish {Q : α → Prop} {g : Option α → Machine → Machine}
    {u : ExecError → ExecError} {r : EStateM.Result ExecError Machine α}
    (hg : ∀ o n, (n : Machine).control.Within p → (g o n).control.Within p)
    (h : Settled p Q r) : Settled p Q (finish g u r) := by
  cases r with
  | ok a m =>
    refine ⟨hg (some a) m h.1, fun b n hb => ?_⟩
    cases hb
    exact h.2 a m rfl
  | error e m => exact ⟨hg none m h.1, fun b n hb => by cases hb⟩

/-- Wherever `x` is run at a line of the program with control within it, it comes out so, with
results as `Q` says. -/
def Confined (p : Program) (x : Exec α) (Q : α → Prop) : Prop :=
  ∀ env m, env.program = p → env.index < p.size → m.control.Within p → Settled p Q (x env m)

namespace Confined

variable {x : Exec α} {f : α → Exec β} {Q : α → Prop} {R : β → Prop}

lemma pure {a : α} (h : Q a) : Confined p (pure a) Q := by
  intro env m _ _ hm
  refine ⟨hm, fun b m' hb => ?_⟩
  cases hb
  exact h

lemma fail (e : ExecError) : Confined p (fail e) Q := by
  intro env m _ _ hm
  exact ⟨hm, fun a m' ha => by cases ha⟩

lemma misused (e : Misuse) : Confined p (misused e) Q := .fail _

/-- Nothing comes after a failure. -/
lemma fail_bind (e : ExecError) (f : α → Exec β) : Confined p (Exec.fail e >>= f) R := by
  intro env m _ _ hm
  exact ⟨hm, fun a m' ha => by cases ha⟩

lemma bind (hx : Confined p x Q) (hf : ∀ a, Q a → Confined p (f a) R) :
    Confined p (x >>= f) R := by
  intro env m hp hi hm
  obtain ⟨hw, hq⟩ := hx env m hp hi hm
  cases hr : x env m with
  | ok a m' =>
    rw [hr] at hw
    rw [bind_of_ok hr]
    exact hf a (hq a m' hr) env m' hp hi hw
  | error e m' =>
    rw [hr] at hw
    rw [bind_of_error hr]
    exact ⟨hw, fun b n hb => by cases hb⟩

lemma ite {c : Prop} [Decidable c] {x y : Exec α} (hx : c → Confined p x Q)
    (hy : ¬ c → Confined p y Q) : Confined p (if c then x else y) Q := by
  split
  · next h => exact hx h
  · next h => exact hy h

/-- What does not come from a place of the program may be anything. -/
lemma ofQuiet (hx : Quiet x) : Confined p x fun _ => True := by
  intro env m _ _ hm
  obtain ⟨g, hg⟩ := hx.control_eq env m
  refine ⟨?_, fun _ _ _ => trivial⟩
  rw [hg]
  exact ⟨hm.returns, hm.loops, hm.distinct, hm.dataRead_le⟩

lemma deeper (hx : Confined p x Q) : Confined p (deeper x) Q := by
  intro env m hp hi hm
  rw [deeper_eq]
  exact settled_finish (fun _ _ hn => hn) (hx env { m with callDepth := m.callDepth + 1 } hp hi hm)

lemma closing {g : Option α → Control → Control} (hx : Confined p x Q)
    (hg : ∀ o c, Control.Within p c → (g o c).Within p) : Confined p (closing x g) Q := by
  intro env m hp hi hm
  rw [closing_eq]
  exact settled_finish (fun o n hn => hg o n.control hn) (hx env m hp hi hm)

lemma adjust {g : Control → Control} (hg : ∀ c, Control.Within p c → (g c).Within p) :
    Confined p (adjust g) fun _ => True := by
  intro env m _ _ hm
  exact ⟨hg _ hm, fun _ _ _ => trivial⟩

lemma charge : Confined p charge fun _ => True := by
  intro env m _ _ hm
  refine ⟨?_, fun _ _ _ => trivial⟩
  unfold Exec.charge
  split <;> exact hm

lemma setVariable (name : Text) (v : Value) :
    Confined p (setVariable name v) fun _ => True := by
  intro env m _ _ hm
  exact ⟨hm, fun _ _ _ => trivial⟩

lemma print (t : Text) : Confined p (print t) fun _ => True := by
  intro env m _ _ hm
  exact ⟨hm, fun _ _ _ => trivial⟩

/-- The machine that a computation gets is within the program. -/
lemma get {f : Machine → Exec β} (hf : ∀ m, m.control.Within p → Confined p (f m) R) :
    Confined p (MonadState.get >>= f) R := by
  intro env m hp hi hm
  exact hf m hm env m hp hi hm

/-- The environment that a computation reads is that of a line of the program. -/
lemma read {f : Environment → Exec β}
    (hf : ∀ env, env.program = p → env.index < p.size → Confined p (f env) R) :
    Confined p (MonadReader.read >>= f) R := by
  intro env m hp hi hm
  exact hf env hp hi env m hp hi hm

lemma program : Confined p program (· = p) := by
  intro env m hp _ hm
  refine ⟨hm, fun a m' ha => ?_⟩
  cases ha
  exact hp

lemma draw (g : Turtle → Turtle) : Confined p (draw g) fun _ => True :=
  .adjust (g := fun c => { c with turtle := g c.turtle }) fun _ hc =>
    ⟨hc.returns, hc.loops, hc.distinct, hc.dataRead_le⟩

lemma target (hp : p.Placed) (t : Text) : Confined p (target t) (· < p.size) := by
  refine .bind .program fun q hq => ?_
  subst hq
  split
  · next i hi => exact .pure (hp.target hi)
  · exact .fail _

lemma enterSubroutine {i : Nat} (h : i < p.size) :
    Confined p (enterSubroutine i) (·.Within p) := by
  refine .read fun env _ hindex => ?_
  refine .bind (Q := fun _ => True) ?_ fun _ _ => .pure (Nat.le_of_lt h)
  refine .adjust (g := fun c => { c with returns := (env.index + 1) :: c.returns }) fun c hc => ?_
  refine ⟨fun j hj => ?_, hc.loops, hc.distinct, hc.dataRead_le⟩
  rcases List.mem_cons.1 hj with rfl | hj
  · exact ⟨Nat.succ_pos _, hindex⟩
  · exact hc.returns j hj

lemma leaveSubroutine (command expected : String) :
    Confined p (leaveSubroutine command expected) (·.Within p) := by
  refine .get fun m hm => ?_
  split
  · exact .fail _
  · next i rest hr =>
    have hreturns : ∀ j ∈ i :: rest, 1 ≤ j ∧ j ≤ p.size := by
      rw [← hr]
      exact hm.returns
    refine .bind (Q := fun _ => True) ?_ fun _ _ => .pure (hreturns i List.mem_cons_self).2
    exact .adjust (g := fun c => { c with returns := rest }) fun c hc =>
      ⟨fun j hj => hreturns j (List.mem_cons_of_mem i hj), hc.loops, hc.distinct, hc.dataRead_le⟩

end Confined

end Exec

end Courseware
