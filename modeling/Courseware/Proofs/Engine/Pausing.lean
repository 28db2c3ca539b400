import Courseware.Proofs.Engine.Ceiling
import Courseware.Proofs.Engine.Confinement

/-!
Where a program stands between the acts of its host.

If pauses come back to the host, the engine that the host gets back is either at rest or paused
before the line at its place, and the debugger says which. What was asked of the debugger before
a program is begun is forgotten when it is begun.
-/

namespace Courseware

/-! ### What is asked of a debugger -/

namespace Debugger

/-- No action begins or ends a pause. -/
lemma pausedAt_perform (d : Debugger) (a : Action) : (d.perform a).pausedAt = d.pausedAt := by
  cases a with
  | toggle i =>
    change (d.toggle i).pausedAt = d.pausedAt
    unfold toggle
    split <;> rfl
  | step =>
    change d.step.pausedAt = d.pausedAt
    unfold step
    split <;> rfl
  | resume =>
    change d.resume.pausedAt = d.pausedAt
    unfold resume
    split <;> rfl
  | _ => rfl

/-- What is asked of a program: to stop, to step or to go on. -/
def Action.isRequest : Action → Bool
  | .step => true
  | .resume => true
  | .stop => true
  | _ => false

/-- The debugger as if nothing had been asked of the program. -/
def unasked (d : Debugger) : Debugger :=
  { d with breakNext := false, signal := none, stopRequested := false }

lemma unasked_perform (d : Debugger) {a : Action} (h : a.isRequest = true) :
    (d.perform a).unasked = d.unasked := by
  cases a with
  | step =>
    change d.step.unasked = d.unasked
    unfold step
    split <;> rfl
  | resume =>
    change d.resume.unasked = d.unasked
    unfold resume
    split <;> rfl
  | stop => rfl
  | _ => cases h

end Debugger

lemma Machine.pausedAt_emit (m : Machine) (ev : Event) :
    (m.emit ev).debugger.pausedAt = m.debugger.pausedAt := by
  have hfold : ∀ (rs : List (Nat × Reaction)) (d : Debugger),
      (rs.foldl (fun d r => react d r.2) d).pausedAt = d.pausedAt := by
    intro rs
    induction rs with
    | nil => exact fun _ => rfl
    | cons r rs ih =>
      intro d
      rw [List.foldl_cons, ih]
      cases r.2 with
      | act a => exact d.pausedAt_perform a
      | _ => rfl
  exact hfold _ _

lemma Exec.kept_pausedAt (limit : Nat) :
    Kept limit fun m m' => m'.debugger.pausedAt = m.debugger.pausedAt where
  refl _ := rfl
  trans h₁ h₂ := h₂.trans h₁
  control _ _ := rfl
  depth _ _ := rfl
  charge _ _ := rfl
  setVariable _ _ _ := Machine.pausedAt_emit _ _
  print _ _ := Machine.pausedAt_emit _ _
  host _ _ := rfl
  asked _ _ _ := rfl

namespace Engine

variable {e e' s : Engine} {w w' : Waiting}

lemma pausedAt_emit (e : Engine) (ev : Event) :
    (e.emit ev).debugger.pausedAt = e.debugger.pausedAt :=
  e.machine.pausedAt_emit ev

lemma pausedAt_execute (e : Engine) (t : Text) :
    (e.execute t).2.debugger.pausedAt = e.debugger.pausedAt := by
  rw [execute_snd]
  exact (composed_execute _ t).keeps (Exec.kept_pausedAt _) e.machine

/-! ### Rounds -/

/-- The program runs and has not paused. -/
structure Underway (e : Engine) : Prop where
  running : e.running = true
  unpaused : e.debugger.pausedAt = none

/-- Where an engine may stand when its host gets it back. -/
inductive Poised (e : Engine) : Prop where
  | resting (running : e.running = false) (unpaused : e.debugger.pausedAt = none)
  | paused (running : e.running = true) (pausedAt : e.debugger.pausedAt = some e.index)
      (index_lt : e.index < e.program.size)

/-- Rounds that do not wait leave the program running, or the engine where the host may get it
back. -/
def Round.Sound : Round → Prop
  | .ended r => r.2.Poised
  | .again w e => w = .yield ∧ e.Underway

lemma Underway.emit (h : e.Underway) (ev : Event) : (e.emit ev).Underway :=
  ⟨h.running, (e.pausedAt_emit ev).trans h.unpaused⟩

lemma Underway.report (h : e.Underway) (error : ExecError) : (e.report error).Underway := h.emit _

lemma Underway.complete (h : e.Underway) : e.complete.2.Poised :=
  .resting rfl ((pausedAt_emit _ _).trans h.unpaused)

lemma Underway.halt (h : e.Underway) (error : ExecError) : (e.halt error).2.Poised :=
  .resting rfl ((pausedAt_emit _ _).trans h.unpaused)

lemma poised_finishStopped (e : Engine) : e.finishStopped.2.Poised :=
  .resting rfl (pausedAt_emit _ _)

lemma Underway.execute (h : e.Underway) (t : Text) : (e.execute t).2.Underway := by
  refine ⟨?_, (e.pausedAt_execute t).trans h.unpaused⟩
  rw [execute_snd]
  exact h.running

lemma Underway.conclude (h : e.Underway) (i : Nat) (x : Except ExecError Directive) :
    (conclude .yield i x e).Sound := by
  have hmoved : ∀ {e : Engine} {n j : Nat}, e.Underway →
      { e with errors := n, index := j }.Underway := fun he => ⟨he.running, he.unpaused⟩
  cases x with
  | ok d =>
    cases d with
    | next => exact ⟨rfl, (hmoved h).emit _⟩
    | jump j => exact ⟨rfl, (hmoved h).emit _⟩
    | halt => exact (h.emit _).complete
    | exit => exact (h.emit _).complete
  | error error =>
    by_cases hfatal : error.isFatal = true
    · rw [conclude_of_fatal hfatal]
      exact (h.report error).halt error
    · rw [conclude_of_not_fatal hfatal]
      exact ⟨rfl, (hmoved (h.report error)).emit _⟩

/-- A pause comes back to the host, which can see where it is. -/
lemma poised_paused (hr : e.running = true) (hi : e.index < e.program.size)
    (reason : PauseReason) : (e.paused reason).Poised := by
  cases reason with
  | step => exact .paused hr rfl hi
  | breakpoint => exact .paused hr (pausedAt_emit _ _) hi

/-- **A round of a running program goes on, or comes back to the host at rest or paused.** -/
theorem Underway.round (h : e.Underway) : (e.round .yield).Sound := by
  have hheard : e.heard.Underway := ⟨h.running, h.unpaused⟩
  rw [round_eq]
  cases hp : e.plan with
  | stop => exact poised_finishStopped _
  | idle => exact absurd hp (plan_ne_idle h.running)
  | exhausted => exact (hheard.report _).halt _
  | finish => exact hheard.complete
  | pause reason =>
    -- the pause comes before a line, so there is a line at its place
    obtain ⟨⟨line, hready⟩, -, -⟩ := ready_of_plan_pause hp
    dsimp only
    rw [pause_yield]
    exact poised_paused (e := e.arrested) h.running (lt_of_line hready.line_eq) reason
  | line line =>
    have hcounted : e.counted.Underway := ⟨h.running, h.unpaused⟩
    exact (hcounted.execute line.text).conclude e.index _

/-- **A run comes back to the host at rest or paused.** -/
theorem Underway.go (h : e.Underway) : (e.go .yield).2.Poised := by
  obtain ⟨w, hw⟩ : ∃ w : Waiting, w = .yield := ⟨_, rfl⟩
  rw [← hw]
  induction w, e using go_induction with
  | step w e ih =>
    subst hw
    have hround := h.round
    rw [go_eq]
    cases hr : e.round .yield with
    | ended r =>
      rw [hr] at hround
      exact hround
    | again w' e' =>
      rw [hr] at hround
      exact ih w' e' hr hround.2 hround.1

/-! ### Acts of the host -/

lemma underway_start (e : Engine) : e.start.Underway := ⟨rfl, pausedAt_emit _ _⟩

/-- A running program that the host has got back is paused, and an act that lets it run ends the
pause. -/
lemma Poised.begins (h : e.Poised) (hy : e.settings.suspend = .yield) {a : Act}
    (hb : e.begins a = some (w, s)) : w = .yield ∧ s.Underway := by
  cases a with
  | drive answers =>
    cases hb
    unfold waiting
    rw [hy]
    exact ⟨rfl, underway_start e⟩
  | step =>
    cases hb
    refine ⟨rfl, ?_, rfl⟩
    by_cases hr : e.running = true
    · rw [if_pos hr]
      exact hr
    · rw [if_neg hr]
      exact (underway_start e).running
  | resume =>
    rw [begins_resume] at hb
    split at hb
    · next hr =>
      cases hb
      refine ⟨rfl, ?_⟩
      unfold resumed
      -- what runs is paused, and `resumed` ends the pause
      cases h with
      | resting hrest hn => exact absurd hr (by simp [hrest])
      | paused _ hp hi =>
        rw [hp]
        exact ⟨hr, rfl⟩
    · cases hb
  | _ => cases hb

/-- What has no part in pauses may change. -/
lemma Poised.of_same (h : e.Poised) (hd : e'.debugger.pausedAt = e.debugger.pausedAt)
    (hr : e'.running = e.running) (hi : e'.index = e.index) (hp : e'.program = e.program) :
    e'.Poised := by
  cases h with
  | resting hrest hn => exact .resting (hr.trans hrest) (hd.trans hn)
  | paused hrun hpaused hlt =>
    refine .paused (hr.trans hrun) ?_ ?_
    · rw [hd, hi, hpaused]
    · rw [hi, hp]
      exact hlt

lemma Poised.stop (h : e.Poised) : e.stop.2.Poised := by
  unfold Engine.stop
  dsimp only
  split
  · exact poised_finishStopped _
  · exact h.of_same rfl rfl rfl rfl

lemma poised_reset (e : Engine) : e.reset.Poised := .resting rfl rfl

/-- **An act leaves the engine at rest or paused.** -/
theorem Poised.act (h : e.Poised) (hy : e.settings.suspend = .yield) (a : Act) :
    (e.act a).Poised := by
  cases hb : e.begins a with
  | some b =>
    obtain ⟨hw, hs⟩ := h.begins hy hb
    rw [act_of_begins hb, hw]
    exact hs.go
  | none =>
    cases a with
    | drive answers => cases hb
    | step => cases hb
    | resume =>
      rw [act_resume_of_none hb]
      exact h
    | stop => exact h.stop
    | reset => exact poised_reset e
    | load source =>
      cases hload : e.load source with
      | ok e' =>
        obtain ⟨p, -, rfl⟩ := reset_of_load hload
        rw [act_load_of_ok hload]
        exact poised_reset _
      | error error =>
        rw [act_load_of_error hload]
        exact h
    | perform a => exact h.of_same (e.debugger.pausedAt_perform a) rfl rfl rfl
    | setVariable name v => exact h.of_same (Machine.pausedAt_emit _ _) rfl rfl rfl
    | subscribe c react => exact h.of_same rfl rfl rfl rfl
    | unsubscribe id => exact h.of_same rfl rfl rfl rfl
    | setInput s => exact h.of_same rfl rfl rfl rfl
    | register subsystem c => exact h.of_same rfl rfl rfl rfl

/-- **A host always gets its engine back at rest or paused.** -/
theorem Poised.after (h : e.Poised) (hy : e.settings.suspend = .yield) (acts : List Act) :
    (e.after acts).Poised := by
  induction acts generalizing e with
  | nil => exact h
  | cons a acts ih => exact ih (h.act hy a) (by rw [settings_act, hy])

/-! ### Beginning a program -/

/-- The engine as if nothing had been asked of its program. -/
def unasked (e : Engine) : Engine := e.setDebugger e.debugger.unasked

/-- A program begins as if nothing had been asked of it. -/
lemma start_unasked (e : Engine) : e.unasked.start = e.start := rfl

lemma drive_unasked (e : Engine) (answers : List Debugger.Action) :
    e.unasked.drive answers = e.drive answers := by
  rw [drive_eq, drive_eq, start_unasked]
  rfl

lemma step_unasked (h : e.running = false) : e.unasked.step = e.step := by
  have hr : ¬ e.running = true := by simp [h]
  have hr' : ¬ e.unasked.running = true := hr
  unfold step
  rw [if_neg hr, if_neg hr', start_unasked]

/-- Acts by which something is asked of the program. -/
def Act.isRequest : Act → Bool
  | .perform a => a.isRequest
  | .stop => true
  | _ => false

/-- What is asked of a program changes nothing else, unless the host itself stops it while it is
paused. -/
lemma unasked_act {a : Act} (ha : a.isRequest = true) (h : e.running = false ∨ a ≠ .stop) :
    (e.act a).running = e.running ∧ (e.act a).unasked = e.unasked := by
  cases a with
  | perform a => exact ⟨rfl, congrArg e.setDebugger (e.debugger.unasked_perform ha)⟩
  | stop =>
    have hr : ¬ (e.running && e.debugger.stop.pausedAt.isSome) = true := by
      rw [h.resolve_right fun hne => hne rfl]
      simp
    have hstop : e.act .stop = e.setDebugger e.debugger.stop := congrArg Prod.snd (if_neg hr)
    rw [hstop]
    exact ⟨rfl, rfl⟩
  | _ => cases ha

lemma unasked_after {acts : List Act} (ha : ∀ a ∈ acts, a.isRequest = true)
    (h : e.running = false ∨ .stop ∉ acts) :
    (e.after acts).running = e.running ∧ (e.after acts).unasked = e.unasked := by
  induction acts generalizing e with
  | nil => exact ⟨rfl, rfl⟩
  | cons a acts ih =>
    have hfirst : e.running = false ∨ a ≠ .stop :=
      h.imp_right fun hn hstop => hn (hstop ▸ List.mem_cons_self)
    obtain ⟨hr, hu⟩ := unasked_act (ha a List.mem_cons_self) hfirst
    have hrest : (e.act a).running = false ∨ .stop ∉ acts :=
      h.imp (hr.trans ·) fun hn hmem => hn (List.mem_cons_of_mem a hmem)
    obtain ⟨hr', hu'⟩ := ih (fun b hb => ha b (List.mem_cons_of_mem a hb)) hrest
    exact ⟨hr'.trans hr, hu'.trans hu⟩

/-- **A program runs between the acts of its host exactly if it is paused**, and then the pause is
before the line at its place. Nothing is resumed that does not run. When a program is begun, by
`run` or by `step`, whatever has been asked before is ignored. -/
theorem running_iff_paused {source : RandomSource} {s : Settings} (hs : s.suspend = .yield)
    {acts : List Act} {e : Engine} (he : e = (new source s).after acts) :
    (e.running = true ↔ ∃ i, e.debugger.pausedAt = some i) ∧
      (∀ i, e.debugger.pausedAt = some i → i = e.index ∧ i < e.program.size) ∧
      (e.running = false → e.resume = (.idle, e)) ∧
      (e.unasked.run = e.run ∧ (e.running = false → e.unasked.step = e.step)) ∧
      ∀ requests : List Act, (∀ r ∈ requests, r.isRequest = true) →
        e.running = false ∨ .stop ∉ requests →
        (e.after requests).run = e.run ∧
          (e.running = false → (e.after requests).step = e.step) := by
  have hpoised : e.Poised := he ▸ Poised.after (e := new source s) (.resting rfl rfl) hs acts
  refine ⟨?_, ?_, fun hr => ?_, ⟨e.drive_unasked [], step_unasked⟩, fun requests ha h => ?_⟩
  · cases hpoised with
    | resting hr hn => simp [hr, hn]
    | paused hr hp hi => simp [hr, hp]
  · intro i hi
    cases hpoised with
    | resting hr hn =>
      rw [hn] at hi
      cases hi
    | paused hr hp hlt =>
      cases hp.symm.trans hi
      exact ⟨rfl, hlt⟩
  · rw [resume_eq, if_neg (by simp [hr])]
  · obtain ⟨hr, hu⟩ := unasked_after ha h
    constructor
    · rw [run, run, ← drive_unasked, hu, drive_unasked]
    · intro hrest
      rw [← step_unasked (hr.trans hrest), hu, step_unasked hrest]

/-- A program that is paused at a breakpoint, after a request to stop that came before it was
begun. -/
theorem running_iff_paused_breakpoint :
    ∃ (acts : List Act) (e : Engine),
      acts = [.load "T:one\nT:two\nT:three".toList, .perform (.toggle 1), .perform .stop,
        .drive []] ∧
      e = (new default { suspend := .yield }).after acts ∧ e.running = true ∧
      e.debugger.pausedAt = some 1 ∧ 1 = e.index ∧ 1 < e.program.size ∧
      (e.after [.perform .stop, .perform .step]).run = e.run := by
  obtain ⟨e, he, hr, hp⟩ : ∃ e, e = (new default { suspend := .yield }).after
      [.load "T:one\nT:two\nT:three".toList, .perform (.toggle 1), .perform .stop, .drive []] ∧
      e.running = true ∧ e.debugger.pausedAt = some 1 :=
    ⟨_, rfl, by decide +kernel, by decide +kernel⟩
  obtain ⟨-, hpaused, -, -, hasked⟩ := running_iff_paused rfl he
  have hrequests : ∀ r ∈ [Act.perform .stop, .perform .step], r.isRequest = true := by
    intro r hr
    simp only [List.mem_cons, List.not_mem_nil, or_false] at hr
    rcases hr with rfl | rfl <;> rfl
  refine ⟨_, e, rfl, he, hr, hp, (hpaused 1 hp).1, (hpaused 1 hp).2, ?_⟩
  exact (hasked _ hrequests (.inr (by simp))).1

end Engine

end Courseware
