import Courseware.Proofs.Machine.Composition

/-!
What was recorded before a computation makes no difference to it. With an earlier record in front,
it does the same and leaves its own record behind the earlier one.
-/

namespace Courseware

/-- The machine with an earlier record in front of its own. -/
def Machine.preceded (past : Array Entry) (m : Machine) : Machine := { m with log := past ++ m.log }

lemma Machine.emit_preceded (past : Array Entry) (m : Machine) (e : Event) :
    (m.preceded past).emit e = (m.emit e).preceded past := by
  unfold emit preceded
  dsimp only
  rw [Array.append_push]

/-- What the host is asked is recorded behind the earlier record. -/
lemma Machine.ask_preceded (past : Array Entry) (m : Machine) (h : Host) (x : Entry) (b : Bool) :
    { m.preceded past with
        host := h, log := if b then (past ++ m.log).push x else past ++ m.log } =
      { m with host := h, log := if b then m.log.push x else m.log }.preceded past := by
  cases b with
  | true =>
    unfold preceded
    simp only [if_true, Array.append_push]
  | false => rfl

namespace Exec

variable {α : Type}

/-- The result of a computation, with an earlier record in front. -/
def precede (past : Array Entry) :
    EStateM.Result ExecError Machine α → EStateM.Result ExecError Machine α :=
  finish (fun _ => Machine.preceded past) id

lemma finish_precede {past : Array Entry} (g : Option α → Machine → Machine)
    (u : ExecError → ExecError) (hg : ∀ o m, g o (m.preceded past) = (g o m).preceded past)
    (r : EStateM.Result ExecError Machine α) :
    finish g u (precede past r) = precede past (finish g u r) := by
  cases r with
  | ok a m => exact congrArg (EStateM.Result.ok a) (hg (some a) m)
  | error e m => exact congrArg (EStateM.Result.error (u e)) (hg none m)

/-- **Computations make no use of what was recorded before.** -/
theorem Composed.precede {x : Exec α} (hx : Composed x) (past : Array Entry) (env : Environment)
    (m : Machine) : x env (m.preceded past) = precede past (x env m) := by
  induction hx generalizing m with
  | pure a => rfl
  | fail e h => rfl
  | observe f => rfl
  | consult f => rfl
  | adjust f => rfl
  | setVariable name v =>
    exact congrArg (EStateM.Result.ok ())
      (Machine.emit_preceded past { m with vars := m.vars.set name v } _)
  | print t => exact congrArg (EStateM.Result.ok ()) (m.emit_preceded past _)
  | charge =>
    -- neither the limit nor an expression looks at the record
    have hused : (m.preceded past).used = m.used := rfl
    unfold Exec.charge
    rw [hused]
    split <;> rfl
  | evaluate t =>
    have hvars : (m.preceded past).vars = m.vars := rfl
    have hrandom : (m.preceded past).random = m.random := rfl
    unfold Exec.evaluate
    rw [hvars, hrandom]
    split <;> rfl
  | readLine prompt => exact congrArg (EStateM.Result.ok _) (m.ask_preceded past _ _ _)
  | request r =>
    have hhost : (m.preceded past).host = m.host := rfl
    have hasked := m.ask_preceded past (m.host.call r).2 (.request r)
      (m.host.channels.contains r.subsystem)
    unfold Exec.request
    dsimp only
    rw [hhost]
    split
    · next v _ => exact congrArg (EStateM.Result.ok v) hasked
    · next e _ => exact congrArg (EStateM.Result.error (ExecError.host e)) hasked
  | @bind _ _ x f _ _ ihx ihf =>
    have h := ihx m
    cases hr : x env m with
    | ok a n =>
      rw [hr] at h
      have h' : x env (m.preceded past) = .ok a (n.preceded past) := h
      rw [bind_of_ok hr, bind_of_ok h']
      exact ihf a n
    | error e n =>
      rw [hr] at h
      have h' : x env (m.preceded past) = .error e (n.preceded past) := h
      rw [bind_of_error hr, bind_of_error h']
      rfl
  | @fatally _ x _ ih =>
    rw [fatally_eq, fatally_eq, ih m]
    exact finish_precede (fun _ n => n) _ (fun _ _ => rfl) _
  | @deeper _ x _ ih =>
    rw [deeper_eq, deeper_eq]
    refine (congrArg _ (ih { m with callDepth := m.callDepth + 1 })).trans ?_
    exact finish_precede (fun _ n => { n with callDepth := n.callDepth - 1 }) id
      (fun _ _ => rfl) _
  | @closing _ x f _ ih =>
    rw [closing_eq, closing_eq, ih m]
    exact finish_precede (fun o n => n.setControl (f o n.control)) id (fun _ _ => rfl) _

end Exec

end Courseware
