import Courseware.Proofs.Machine.Recording

/-!
Computations under two limits of commands.

The limit is looked at only to count a command, and a failure for running too long goes through
to the outside. So a higher limit either changes nothing at all, or lets a computation go on that
was cut short, and what was recorded before stays recorded.
-/

namespace Courseware

def Settings.limited (s : Settings) (n : Nat) : Settings := { s with maxCommands := n }

def Environment.limited (env : Environment) (n : Nat) : Environment :=
  { env with settings := env.settings.limited n }

namespace Exec

variable {α β : Type} {n k : Nat} {r r' : EStateM.Result ExecError Machine α}

/-- What a limit above `n` makes of a result under the limit `n`. -/
inductive Surpassed (n : Nat) :
    EStateM.Result ExecError Machine α → EStateM.Result ExecError Machine α → Prop where
  | same (r : EStateM.Result ExecError Machine α) : Surpassed n r r
  /-- The computation was cut short, and goes on where it was. -/
  | cut {m : Machine} {r' : EStateM.Result ExecError Machine α}
      (h : m.log.toList <+: (final r').log.toList) : Surpassed n (.error (.runaway n) m) r'

namespace Surpassed

/-- What was recorded when the limit was reached stays recorded. -/
lemma log_grows {m : Machine} (h : Surpassed n (.error (.runaway n) m) r') :
    m.log.toList <+: (final r').log.toList := by
  cases h with
  | same => exact List.prefix_rfl
  | cut h => exact h

/-- A result may be finished in any way that leaves the record and running too long alone. -/
lemma finish (h : Surpassed n r r') {g : Option α → Machine → Machine}
    {u : ExecError → ExecError} (hg : ∀ o m, (g o m).log = m.log)
    (hu : u (.runaway n) = .runaway n) : Surpassed n (finish g u r) (finish g u r') := by
  cases h with
  | same => exact .same _
  | @cut m r' h =>
    have hfinal : (final (Exec.finish g u r')).log = (final r').log := by
      obtain ⟨o, ho⟩ := final_finish g u r'
      rw [ho, hg]
    change Surpassed n (.error (u (.runaway n)) (g none m)) _
    rw [hu]
    refine .cut ?_
    rw [hg, hfinal]
    exact h

/-- What follows a computation that was cut short only adds to the record. -/
lemma bind {x y : Exec α} {f : α → Exec β} {env env' : Environment} {m : Machine}
    (hf : ∀ a, Composed (f a)) (h : Surpassed n (x env m) (y env' m))
    (hfs : ∀ a m', Surpassed n (f a env m') (f a env' m')) :
    Surpassed n ((x >>= f) env m) ((y >>= f) env' m) := by
  generalize hx : x env m = rx at h
  generalize hy : y env' m = ry at h
  cases h with
  | same =>
    cases rx with
    | ok a m' =>
      rw [bind_of_ok hx, bind_of_ok hy]
      exact hfs a m'
    | error e m' =>
      rw [bind_of_error hx, bind_of_error hy]
      exact .same _
  | @cut m' _ h =>
    rw [bind_of_error hx]
    refine .cut ?_
    cases ry with
    | ok a m'' =>
      rw [bind_of_ok hy]
      exact h.trans ((hf a).log_grows env' m'')
    | error e m'' =>
      rw [bind_of_error hy]
      exact h

end Surpassed

/-- **A higher limit never changes what was computed under a lower one.** -/
theorem Composed.surpassed {x : Exec α} (hx : Composed x) (env : Environment)
    (hle : env.settings.maxCommands ≤ k) (m : Machine) :
    Surpassed env.settings.maxCommands (x env m) (x (env.limited k) m) := by
  induction hx generalizing m with
  -- only the count of commands looks at the limit
  | pure a => exact .same _
  | fail e h => exact .same _
  | observe f => exact .same _
  | consult f => exact .same _
  | adjust f => exact .same _
  | evaluate t => exact .same _
  | setVariable name v => exact .same _
  | print t => exact .same _
  | readLine prompt => exact .same _
  | request r => exact .same _
  | bind _ hf ihx ihf => exact .bind hf (ihx m) fun a m' => ihf a m'
  | @fatally _ x _ ih =>
    rw [fatally_eq, fatally_eq]
    exact (ih m).finish (fun _ _ => rfl) rfl
  | @deeper _ x _ ih =>
    rw [deeper_eq, deeper_eq]
    exact (ih _).finish (fun _ _ => rfl) rfl
  | @closing _ x f _ ih =>
    rw [closing_eq, closing_eq]
    exact (ih m).finish (fun _ _ => rfl) rfl
  | charge =>
    unfold Exec.charge
    change Surpassed _ _ (if k ≤ m.used then _ else _)
    by_cases hn : env.settings.maxCommands ≤ m.used
    · -- cut short here; under the higher limit nothing is recorded yet
      rw [if_pos hn]
      refine .cut ?_
      split <;> exact List.prefix_rfl
    · have hk : ¬ k ≤ m.used := by omega
      rw [if_neg hn, if_neg hk]
      exact .same _

end Exec

end Courseware
