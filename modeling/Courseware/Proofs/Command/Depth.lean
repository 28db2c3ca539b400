import Courseware.Proofs.Command.Composition

/-!
How deep procedures call each other. Calls are refused below the limit, so the room that
commands are given for calls is no bound of its own.
-/

namespace Courseware

open Exec

namespace Exec

variable {α β : Type} {env : Environment}

/-- Computations come back to the depth at which they began. -/
lemma Composed.callDepth_eq {x : Exec α} (hx : Composed x) (env : Environment) (m : Machine) :
    (final (x env m)).callDepth = m.callDepth := by
  induction hx generalizing m with
  | pure a => rfl
  | fail e h => rfl
  | observe f => rfl
  | consult f => rfl
  | adjust f => rfl
  | setVariable name v => rfl
  | print t => rfl
  | readLine prompt => rfl
  | @bind _ _ x f _ _ ihx ihf =>
    have h := ihx m
    cases hr : x env m with
    | ok a m' =>
      rw [hr] at h
      rw [bind_of_ok hr]
      exact (ihf a m').trans h
    | error e m' =>
      rw [hr] at h
      rw [bind_of_error hr]
      exact h
  | @fatally _ x _ ih =>
    have h := ih m
    unfold Exec.fatally
    cases hr : x env m <;> rw [hr] at h <;> exact h
  | @closing _ x f _ ih =>
    have h := ih m
    unfold Exec.closing
    cases hr : x env m <;> rw [hr] at h <;> exact h
  | @deeper _ x _ ih =>
    -- one deeper, and back
    have h := ih { m with callDepth := m.callDepth + 1 }
    unfold Exec.deeper
    cases hr : x env { m with callDepth := m.callDepth + 1 } <;> rw [hr] at h <;>
      simp only [final_ok, final_error] at h ⊢ <;> omega
  | charge =>
    unfold Exec.charge
    split <;> rfl
  | evaluate t =>
    unfold Exec.evaluate
    split <;> rfl
  | request r =>
    unfold Exec.request
    dsimp only
    split <;> rfl

/-- Computations that do the same at a depth. -/
def Alike (env : Environment) (depth : Nat) (x y : Exec α) : Prop :=
  ∀ m : Machine, m.callDepth = depth → x env m = y env m

namespace Alike

variable {d : Nat}

lemma refl (x : Exec α) : Alike env d x x := fun _ _ => rfl

lemma bind {x y : Exec α} {f g : α → Exec β} (hc : Composed x) (h : Alike env d x y)
    (hf : ∀ a, Alike env d (f a) (g a)) : Alike env d (x >>= f) (y >>= g) := by
  intro m hm
  have hd := hc.callDepth_eq env m
  have hxy := h m hm
  cases hr : x env m with
  | ok a m' =>
    rw [hr] at hd hxy
    rw [bind_of_ok hr, bind_of_ok hxy.symm]
    exact hf a m' (hd.trans hm)
  | error e m' =>
    rw [hr] at hxy
    rw [bind_of_error hr, bind_of_error hxy.symm]

lemma deeper {x y : Exec α} (h : Alike env (d + 1) x y) :
    Alike env d (deeper x) (deeper y) := by
  intro m hm
  unfold Exec.deeper
  rw [h { m with callDepth := m.callDepth + 1 } (by rw [← hm])]

end Alike

end Exec

namespace Logo

variable {env : Environment} {d : Nat} {enter enter' : Text → Exec Directive}

lemma alike_next {line : Text} {lines : List Text} (hc : Composed (enter line))
    (h : Alike env d (enter line) (enter' line))
    (hlines : Alike env d (runBody enter lines) (runBody enter' lines)) :
    Alike env d
      (do match ← enter line with
        | .next => runBody enter lines
        | .exit => return .next
        | d => return d)
      (do match ← enter' line with
        | .next => runBody enter' lines
        | .exit => return .next
        | d => return d) := by
  refine .bind hc h fun r => ?_
  cases r with
  | next => exact hlines
  | _ => exact .refl _

lemma alike_runBody (hc : ∀ t, Composed (enter t)) (h : ∀ t, Alike env d (enter t) (enter' t))
    (lines : List Text) : Alike env d (runBody enter lines) (runBody enter' lines) := by
  induction lines with
  | nil => exact .refl _
  | cons line lines ih =>
    refine .bind .charge (.refl _) fun _ => ?_
    split
    · exact .refl _
    · exact alike_next (hc line) (h line) ih

/-- Lines are entered one call deeper, and only if calls may be as deep as that. -/
lemma alike_call (hc : ∀ t, Composed (enter t))
    (h : d < env.settings.maxCallDepth → ∀ t, Alike env (d + 1) (enter t) (enter' t))
    (p : Procedure) (inputs : List (Except Misuse Text)) :
    Alike env d (call enter p inputs) (call enter' p inputs) := by
  refine .bind (quiet_arguments inputs).composed (.refl _) fun args m hm => ?_
  by_cases hd : d < env.settings.maxCallDepth
  · have hbody : Alike env d
        (do deeper (runBody enter (← taken (substituteAll (p.params.zip args) p.body))))
        (do deeper (runBody enter' (← taken (substituteAll (p.params.zip args) p.body)))) :=
      .bind (quiet_taken _).composed (.refl _) fun lines => .deeper (alike_runBody hc (h hd) lines)
    have hif : ¬ env.settings.maxCallDepth < m.callDepth + 1 := by omega
    change (if env.settings.maxCallDepth < m.callDepth + 1 then _ else _ : Exec Directive) env m =
      (if env.settings.maxCallDepth < m.callDepth + 1 then _ else _ : Exec Directive) env m
    rw [if_neg hif, if_neg hif]
    exact hbody m hm
  · -- both fail before a line is entered
    have hif : env.settings.maxCallDepth < m.callDepth + 1 := by omega
    change (if env.settings.maxCallDepth < m.callDepth + 1 then _ else _ : Exec Directive) env m =
      (if env.settings.maxCallDepth < m.callDepth + 1 then _ else _ : Exec Directive) env m
    rw [if_pos hif, if_pos hif]
    rfl

lemma alike_repeatFrom {pass pass' : Nat → Exec Directive} (hc : ∀ i, Composed (pass i))
    (h : ∀ i, Alike env d (pass i) (pass' i)) (left i : Nat) :
    Alike env d (repeatFrom pass left i) (repeatFrom pass' left i) := by
  induction left generalizing i with
  | zero => exact .refl _
  | succ left ih =>
    refine .bind (hc i) (h i) fun r => ?_
    cases r with
    | next => exact ih (i + 1)
    | _ => exact .refl _

mutual

theorem alike_sentence (hc : ∀ t, Composed (enter t))
    (h : d < env.settings.maxCallDepth → ∀ t, Alike env (d + 1) (enter t) (enter' t))
    (s : Sentence) : Alike env d (s.run enter) (s.run enter') := by
  cases s with
  | simple s =>
    rw [Sentence.run, Sentence.run]
    cases s with
    | call verb p inputs => exact alike_call hc h p inputs
    | _ => exact .refl _
  | repeatBlock count body =>
    rw [run_repeatBlock, run_repeatBlock]
    have hpass : ∀ i, Alike env d (pass enter body i) (pass enter' body i) := by
      intro i
      have hrest := fun (_ : Unit) => Alike.bind
        (.setVariable "REPCOUNT".toList (.integer (Int64.ofNat i))) (.refl _) fun _ =>
          alike_runAll hc h body true
      unfold pass
      split
      · exact .bind .charge (.refl _) hrest
      · exact hrest ()
    exact .bind (quiet_repeatCount count).composed (.refl _) fun n =>
      alike_repeatFrom (composed_pass (composed_runAll hc body true)) hpass n 1
  | ifBlock condition body =>
    rw [Sentence.run, Sentence.run]
    refine .bind (quiet_resolve condition).composed (.refl _) fun v => ?_
    split
    · exact alike_runAll hc h body true
    · exact .refl _
  | stray m =>
    rw [Sentence.run, Sentence.run]
    exact .refl _

theorem alike_runAll (hc : ∀ t, Composed (enter t))
    (h : d < env.settings.maxCallDepth → ∀ t, Alike env (d + 1) (enter t) (enter' t))
    (ss : List Sentence) (counted : Bool) :
    Alike env d (runAll enter ss counted) (runAll enter' ss counted) := by
  cases ss with
  | nil =>
    rw [runAll, runAll]
    exact .refl _
  | cons s rest =>
    rw [runAll, runAll]
    have hrest := fun (_ : Unit) => Alike.bind (composed_sentence hc s) (alike_sentence hc h s)
      fun r => (show Alike env d (match r with
          | .next => runAll enter rest true
          | r => pure r) (match r with
          | .next => runAll enter' rest true
          | r => pure r) by
        cases r with
        | next => exact alike_runAll hc h rest true
        | _ => exact .refl _)
    split
    · exact .bind .charge (.refl _) hrest
    · exact hrest ()

end

end Logo

namespace Command

variable {env : Environment} {d : Nat} {enter enter' : Text → Exec Directive}

lemma alike_run (hc : ∀ t, Composed (enter t))
    (h : d < env.settings.maxCallDepth → ∀ t, Alike env (d + 1) (enter t) (enter' t))
    (c : Command) : Alike env d (c.run enter) (c.run enter') := by
  induction c with
  | logo line => exact Logo.alike_runAll hc h line false
  | nested c ih => exact .bind .charge (.refl _) fun _ => ih
  | ifThen condition yes no hyes hno =>
    refine .bind (.condition condition) (.refl _) fun b => ?_
    split
    · exact hyes
    · exact hno
  | ifBlock condition body =>
    refine .bind (Logo.quiet_expanded condition).composed (.refl _) fun t => ?_
    cases body with
    | none => exact .refl _
    | some ss =>
      refine .bind (.condition t) (.refl _) fun b => ?_
      split
      · exact Logo.alike_runAll hc h ss true
      · exact .refl _
  | _ => exact .refl _

end Command

/-- **Room for calls is no bound of its own.** Where there is room up to the limit of calls,
more room makes no difference. -/
theorem execute_room {env : Environment} {m : Machine} {room room' : Nat}
    (h : env.settings.maxCallDepth ≤ m.callDepth + room) (hr : room ≤ room') (t : Text) :
    execute room t env m = execute room' t env m := by
  induction room generalizing room' m t with
  | zero =>
    cases room' with
    | zero => rfl
    | succ room' =>
      -- no line is entered from here
      refine Alike.bind .program (.refl _) (fun p => Command.alike_run ?_ ?_ _) m rfl
      · exact fun u => .fail _ fun _ h => by cases h
      · exact fun hd => absurd hd (Nat.not_lt.2 h)
  | succ room ih =>
    obtain ⟨room', rfl⟩ : ∃ k, room' = k + 1 := ⟨room' - 1, by omega⟩
    refine Alike.bind .program (.refl _) (fun p => Command.alike_run ?_ ?_ _) m rfl
    · exact composed_execute room
    · exact fun _ u n hn => ih (by omega) (by omega) u

end Courseware
