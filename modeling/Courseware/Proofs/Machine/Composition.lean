import Courseware.Machine.Basic
import Mathlib.Tactic.Lemma

/-!
What computations on the machine are put together from.

Commands reach the machine only through a few operations. They see a part of it, set a part of
it directly, and do the rest by events, by requests to the host and by charging. Whatever holds
of the operations and is kept by putting computations together then holds of every command.
-/

namespace Courseware

/-- The part of a machine that commands set directly. -/
structure Control where
  turtle : Turtle
  returns : List Nat
  loops : List Loop
  verdict : Verdict
  dataRead : Nat
  random : Generator

/-- The part of a machine that commands see. -/
structure View where
  vars : Variables
  control : Control
  callDepth : Nat

namespace Machine

def control (m : Machine) : Control :=
  ⟨m.turtle, m.returns, m.loops, m.verdict, m.dataRead, m.random⟩

def setControl (m : Machine) (c : Control) : Machine :=
  { m with
    turtle := c.turtle
    returns := c.returns
    loops := c.loops
    verdict := c.verdict
    dataRead := c.dataRead
    random := c.random }

def view (m : Machine) : View := ⟨m.vars, m.control, m.callDepth⟩

end Machine

/-- Records of what the host was asked. -/
def Entry.isAsked : Entry → Bool
  | .event .. => false
  | .prompt _ => true
  | .request _ => true

/-- A machine of which this is seen. -/
def View.machine (v : View) : Machine :=
  { vars := v.vars
    turtle := v.control.turtle
    returns := v.control.returns
    loops := v.control.loops
    verdict := v.control.verdict
    dataRead := v.control.dataRead
    random := v.control.random
    callDepth := v.callDepth }

namespace Exec

variable {α β : Type}

lemma bind_of_ok {x : Exec α} {f : α → Exec β} {env : Environment} {m m' : Machine} {a : α}
    (h : x env m = .ok a m') : (x >>= f) env m = f a env m' := by
  simp [bind, ReaderT.bind, EStateM.bind, h]

lemma bind_of_error {x : Exec α} {f : α → Exec β} {env : Environment} {m m' : Machine}
    {e : ExecError} (h : x env m = .error e m') : (x >>= f) env m = .error e m' := by
  simp [bind, ReaderT.bind, EStateM.bind, h]

lemma ok_of_bind {x : Exec α} {f : α → Exec β} {env : Environment} {m m' : Machine} {b : β}
    (h : (x >>= f) env m = .ok b m') : ∃ a n, x env m = .ok a n ∧ f a env n = .ok b m' := by
  cases hr : x env m with
  | ok a n => exact ⟨a, n, rfl, (bind_of_ok hr).symm.trans h⟩
  | error e n =>
    rw [bind_of_error hr] at h
    cases h

lemma error_of_bind {x : Exec α} {f : α → Exec β} {env : Environment} {m m' : Machine}
    {e : ExecError} (h : (x >>= f) env m = .error e m') :
    x env m = .error e m' ∨ ∃ a n, x env m = .ok a n ∧ f a env n = .error e m' := by
  cases hr : x env m with
  | ok a n => exact .inr ⟨a, n, rfl, (bind_of_ok hr).symm.trans h⟩
  | error e' n =>
    rw [bind_of_error hr] at h
    cases h
    exact .inl rfl

/-- Something seen of the machine. -/
def observe (f : View → α) : Exec α := fun _ m => .ok (f m.view) m

/-- Something known of the line, but not how many commands may be executed. -/
def consult (f : (program : Program) → (maxCallDepth index : Nat) → α) : Exec α := fun env m =>
  .ok (f env.program env.settings.maxCallDepth env.index) m

def adjust (f : Control → Control) : Exec Unit := fun _ m => .ok () (m.setControl (f m.control))

/-- Runs `x`, and then sets control by its outcome, also if it fails. -/
def closing (x : Exec α) (f : Option α → Control → Control) : Exec α := fun env m =>
  match x env m with
  | .ok a m => .ok a (m.setControl (f (some a) m.control))
  | .error e m => .error e (m.setControl (f none m.control))

/-- Computations that are put together from the operations of the machine. -/
inductive Composed : {α : Type} → Exec α → Prop where
  | pure {α : Type} (a : α) : Composed (pure a)
  /-- Only charging finds that too many commands have been executed. -/
  | fail {α : Type} (e : ExecError) (h : ∀ n, e ≠ .runaway n) : Composed (fail e : Exec α)
  | bind {α β : Type} {x : Exec α} {f : α → Exec β} (hx : Composed x)
      (hf : ∀ a, Composed (f a)) : Composed (x >>= f)
  | fatally {α : Type} {x : Exec α} (hx : Composed x) : Composed (fatally x)
  | deeper {α : Type} {x : Exec α} (hx : Composed x) : Composed (deeper x)
  | closing {α : Type} {x : Exec α} (f : Option α → Control → Control) (hx : Composed x) :
      Composed (closing x f)
  | observe {α : Type} (f : View → α) : Composed (observe f)
  | consult {α : Type} (f : Program → Nat → Nat → α) : Composed (consult f)
  | adjust (f : Control → Control) : Composed (adjust f)
  | charge : Composed charge
  | evaluate (t : Text) : Composed (evaluate t)
  | setVariable (name : Text) (v : Value) : Composed (setVariable name v)
  | print (t : Text) : Composed (print t)
  | readLine (prompt : Text) : Composed (readLine prompt)
  | request (r : Request) : Composed (request r)

/-- A computation that gets the whole machine may as well observe what commands see of it. -/
lemma get_bind_eq {f : Machine → Exec α} (hv : ∀ m m', m.view = m'.view → f m = f m') :
    (MonadState.get >>= f) = (observe id >>= fun v => f v.machine) := by
  funext env m
  exact congrFun (congrFun (hv m m.view.machine rfl) env) m

/-- Computations that change nothing but the random numbers and the host. -/
inductive Quiet : {α : Type} → Exec α → Prop where
  | pure {α : Type} (a : α) : Quiet (pure a)
  | fail {α : Type} (e : ExecError) (h : ∀ n, e ≠ .runaway n) : Quiet (fail e : Exec α)
  | bind {α β : Type} {x : Exec α} {f : α → Exec β} (hx : Quiet x) (hf : ∀ a, Quiet (f a)) :
      Quiet (x >>= f)
  | fatally {α : Type} {x : Exec α} (hx : Quiet x) : Quiet (fatally x)
  | observe {α : Type} (f : View → α) : Quiet (observe f)
  | consult {α : Type} (f : Program → Nat → Nat → α) : Quiet (consult f)
  | evaluate (t : Text) : Quiet (evaluate t)
  | readLine (prompt : Text) : Quiet (readLine prompt)
  | request (r : Request) : Quiet (request r)

namespace Quiet

lemma composed {x : Exec α} (h : Quiet x) : Composed x := by
  induction h with
  | pure a => exact .pure a
  | fail e h => exact .fail e h
  | bind _ _ ihx ihf => exact .bind ihx ihf
  | fatally _ ih => exact .fatally ih
  | observe f => exact .observe f
  | consult f => exact .consult f
  | evaluate t => exact .evaluate t
  | readLine prompt => exact .readLine prompt
  | request r => exact .request r

lemma get {f : Machine → Exec α} (hf : ∀ m, Quiet (f m))
    (hv : ∀ m m', m.view = m'.view → f m = f m') : Quiet (MonadState.get >>= f) := by
  rw [get_bind_eq hv]
  exact .bind (.observe id) fun v => hf v.machine

lemma ite {p : Prop} [Decidable p] {x y : Exec α} (hx : p → Quiet x) (hy : ¬ p → Quiet y) :
    Quiet (if p then x else y) := by
  split
  · next h => exact hx h
  · next h => exact hy h

lemma misused (e : Misuse) : Quiet (misused e : Exec α) := .fail _ fun _ h => by cases h

lemma ofEval (x : Except Expr.EvalError α) : Quiet (ofEval x) := by
  cases x with
  | ok a => exact .pure a
  | error e => exact .fail (.eval e false) fun _ h => by cases h

lemma condition (t : Text) : Quiet (condition t) := .bind (.evaluate t) fun v => .pure v.truthy

lemma interpolate (t : Text) : Quiet (interpolate t) := .observe fun v => v.vars.interpolate t

lemma program : Quiet program := .consult fun p _ _ => p

lemma valueOf? (name : Text) : Quiet (valueOf? name) := .observe fun v => v.vars.value? name

lemma target (t : Text) : Quiet (target t) := by
  refine .bind .program fun p => ?_
  split
  · exact .pure _
  · exact .fail _ fun _ h => by cases h

end Quiet

namespace Composed

/-- A computation may get the whole machine if it only uses what commands see. -/
lemma get {f : Machine → Exec α} (hf : ∀ m, Composed (f m))
    (hv : ∀ m m', m.view = m'.view → f m = f m') : Composed (MonadState.get >>= f) := by
  rw [get_bind_eq hv]
  exact .bind (.observe id) fun v => hf v.machine

/-- A computation may read its environment if it makes no use of the limit of commands. -/
lemma read {f : Environment → Exec α} (hf : ∀ env, Composed (f env))
    (hv : ∀ env env', env.program = env'.program → env.index = env'.index →
      env.settings.maxCallDepth = env'.settings.maxCallDepth → f env = f env') :
    Composed (MonadReader.read >>= f) := by
  have h : (MonadReader.read >>= f) =
      (Exec.consult (fun p d i => (⟨p, { maxCallDepth := d }, i⟩ : Environment)) >>= f) := by
    funext env m
    have he := hv env ⟨env.program, { maxCallDepth := env.settings.maxCallDepth }, env.index⟩
      rfl rfl rfl
    exact congrFun (congrFun he env) m
  rw [h]
  exact .bind (.consult _) hf

lemma ite {p : Prop} [Decidable p] {x y : Exec α} (hx : p → Composed x) (hy : ¬ p → Composed y) :
    Composed (if p then x else y) := by
  split
  · next h => exact hx h
  · next h => exact hy h

lemma misused (e : Misuse) : Composed (misused e : Exec α) := (Quiet.misused e).composed

lemma condition (t : Text) : Composed (condition t) := (Quiet.condition t).composed

lemma interpolate (t : Text) : Composed (interpolate t) := (Quiet.interpolate t).composed

lemma program : Composed program := Quiet.program.composed

lemma valueOf? (name : Text) : Composed (valueOf? name) := (Quiet.valueOf? name).composed

lemma target (t : Text) : Composed (target t) := (Quiet.target t).composed

lemma draw (f : Turtle → Turtle) : Composed (draw f) :=
  .adjust fun c => { c with turtle := f c.turtle }

lemma enterSubroutine (i : Nat) : Composed (enterSubroutine i) := by
  refine .read (fun env => ?_) fun env env' _ hi _ => by simp only [hi]
  exact .bind (.adjust fun c => { c with returns := (env.index + 1) :: c.returns }) fun _ =>
    .pure _

lemma leaveSubroutine (command expected : String) :
    Composed (leaveSubroutine command expected) := by
  refine .get (fun m => ?_) fun m m' h => ?_
  · split
    · exact .fail _ fun _ h => by cases h
    · next i rest _ =>
      exact .bind (.adjust fun c => { c with returns := rest }) fun _ => .pure _
  · have hr : m.returns = m'.returns := congrArg (·.control.returns) h
    rw [hr]

end Composed

/-! ### What a composed computation can do to the machine -/

/-- The machine that a computation leaves, also if it fails. -/
def final : EStateM.Result ExecError Machine α → Machine
  | .ok _ m => m
  | .error _ m => m

@[simp] lemma final_ok (a : α) (m : Machine) : final (.ok a m) = m := rfl

@[simp] lemma final_error (e : ExecError) (m : Machine) :
    final (.error e m : EStateM.Result ExecError Machine α) = m := rfl

/-- What is done with the result of a computation: the machine and the failure are changed. -/
def finish (g : Option α → Machine → Machine) (u : ExecError → ExecError) :
    EStateM.Result ExecError Machine α → EStateM.Result ExecError Machine α
  | .ok a m => .ok a (g (some a) m)
  | .error e m => .error (u e) (g none m)

lemma final_finish (g : Option α → Machine → Machine) (u : ExecError → ExecError)
    (r : EStateM.Result ExecError Machine α) : ∃ o, final (finish g u r) = g o (final r) := by
  cases r with
  | ok a m => exact ⟨some a, rfl⟩
  | error e m => exact ⟨none, rfl⟩

lemma fatally_eq (x : Exec α) (env : Environment) (m : Machine) :
    fatally x env m = finish (fun _ n => n) ExecError.toFatal (x env m) := by
  unfold fatally
  cases x env m <;> rfl

lemma deeper_eq (x : Exec α) (env : Environment) (m : Machine) :
    deeper x env m = finish (fun _ n => { n with callDepth := n.callDepth - 1 }) id
      (x env { m with callDepth := m.callDepth + 1 }) := by
  unfold deeper
  cases x env { m with callDepth := m.callDepth + 1 } <;> rfl

lemma closing_eq (x : Exec α) (f : Option α → Control → Control) (env : Environment)
    (m : Machine) :
    closing x f env m = finish (fun o n => n.setControl (f o n.control)) id (x env m) := by
  unfold closing
  cases x env m <;> rfl

/-- A relation between earlier and later machines that each operation keeps to, if at most
`limit` commands may be executed. -/
structure Kept (limit : Nat) (T : Machine → Machine → Prop) : Prop where
  refl : ∀ m, T m m
  trans : ∀ {m₁ m₂ m₃}, T m₁ m₂ → T m₂ m₃ → T m₁ m₃
  control : ∀ m c, T m (m.setControl c)
  depth : ∀ m d, T m { m with callDepth := d }
  charge : ∀ m, m.used < limit → T m { m with used := m.used + 1 }
  setVariable : ∀ m name v, T m (m.setVariable name v)
  print : ∀ m t, T m (m.emit (.text t))
  host : ∀ m h, T m { m with host := h }
  asked : ∀ m x, x.isAsked = true → T m { m with log := m.log.push x }

/-- The host may be asked, which is recorded if somebody is there to answer. -/
lemma Kept.ask {limit : Nat} {T : Machine → Machine → Prop} (hT : Kept limit T) (m : Machine)
    (h : Host) {x : Entry} (hx : x.isAsked = true) (b : Bool) :
    T m { m with host := h, log := if b then m.log.push x else m.log } := by
  cases b with
  | false => exact hT.host m h
  | true => exact hT.trans (hT.host m h) (hT.asked _ x hx)

/-- **What every operation keeps to holds between beginning and end of a composition.** -/
theorem Composed.keeps {env : Environment} {T : Machine → Machine → Prop}
    (hT : Kept env.settings.maxCommands T) {x : Exec α} (hx : Composed x) (m : Machine) :
    T m (final (x env m)) := by
  induction hx generalizing m with
  | pure a => exact hT.refl m
  | fail e h => exact hT.refl m
  | observe f => exact hT.refl m
  | consult f => exact hT.refl m
  | adjust f => exact hT.control m _
  | @bind _ _ x f _ _ ihx ihf =>
    have h := ihx m
    cases hr : x env m with
    | ok a m' =>
      rw [hr] at h
      rw [bind_of_ok hr]
      exact hT.trans h (ihf a m')
    | error e m' =>
      rw [hr] at h
      rw [bind_of_error hr]
      exact h
  | @fatally _ x _ ih =>
    rw [fatally_eq]
    obtain ⟨o, ho⟩ := final_finish (fun _ n => n) ExecError.toFatal (x env m)
    rw [ho]
    exact ih m
  | @deeper _ x _ ih =>
    rw [deeper_eq]
    -- down, the computation itself, and up again
    obtain ⟨o, ho⟩ := final_finish (fun _ n => { n with callDepth := n.callDepth - 1 }) id
      (x env { m with callDepth := m.callDepth + 1 })
    rw [ho]
    exact hT.trans (hT.trans (hT.depth m (m.callDepth + 1)) (ih _)) (hT.depth _ _)
  | @closing _ x f _ ih =>
    rw [closing_eq]
    obtain ⟨o, ho⟩ := final_finish (fun o n => n.setControl (f o n.control)) id (x env m)
    rw [ho]
    exact hT.trans (ih m) (hT.control _ _)
  | charge =>
    unfold Exec.charge
    split
    · exact hT.refl m
    · next h => exact hT.charge m (Nat.lt_of_not_le h)
  | evaluate t =>
    unfold Exec.evaluate
    split
    · next v g _ => exact hT.control m { m.control with random := g }
    · next e g _ => exact hT.control m { m.control with random := g }
  | setVariable name v => exact hT.setVariable m name v
  | print t => exact hT.print m t
  | readLine prompt => exact hT.ask m _ (x := .prompt prompt) rfl _
  | request r =>
    unfold Exec.request
    dsimp only
    split <;> exact hT.ask m _ (x := .request r) rfl _

end Exec

end Courseware
