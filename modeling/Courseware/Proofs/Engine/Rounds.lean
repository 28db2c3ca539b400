import Courseware.Engine.Session
import Courseware.Proofs.Command.Composition
import Courseware.Proofs.Machine.Charging

/-!
What the rounds of a run do, and that their number is no bound of its own.

A round either ends the run, or executes a line, or takes a pause after which the line is
executed. Since every line counts as a command, a run ends before the rounds are used up, so it
is the same as the loop without a bound.
-/

namespace Courseware

open Exec

/-- What a round does. -/
inductive Plan where
  | stop
  | idle
  /-- No command may be executed any more. -/
  | exhausted
  | finish
  | pause (reason : PauseReason)
  | line (line : Line)

namespace Debugger

/-- Why there is a pause before the line at `i`, if there is one. -/
def reason? (d : Debugger) (i : Nat) : Option PauseReason :=
  if d.hasBreakpoint i then some .breakpoint
  else if d.stepMode || d.breakNext then some .step
  else none

lemma of_pauseReason_none {d d' : Debugger} {i : Nat} (h : d.pauseReason i = (none, d')) :
    d.reason? i = none ∧ d = d' := by
  unfold pauseReason at h
  unfold reason?
  split at h
  · cases h
  · next hb =>
    rw [if_neg hb]
    split at h
    · cases h
    · next hs =>
      cases h
      exact ⟨if_neg hs, rfl⟩

lemma of_pauseReason_some {d d' : Debugger} {i : Nat} {reason : PauseReason}
    (h : d.pauseReason i = (some reason, d')) :
    d.reason? i = some reason ∧ { d with breakNext := false } = d' := by
  unfold pauseReason at h
  unfold reason?
  split at h
  · next hb =>
    cases h
    exact ⟨if_pos hb, rfl⟩
  · next hb =>
    rw [if_neg hb]
    split at h
    · next hs =>
      cases h
      exact ⟨if_pos hs, rfl⟩
    · cases h

end Debugger

namespace Engine

variable {w w' w'' : Waiting} {e e' e'' : Engine} {line : Line} {r : Outcome × Engine}

/-- What the next round does. -/
def plan (e : Engine) : Plan :=
  if e.debugger.stopRequested then .stop
  else if !e.running then .idle
  else if e.settings.maxCommands ≤ e.machine.used then .exhausted
  else
    match e.program.line? e.index with
    | none => .finish
    | some line =>
      if e.resumeAt = some e.index then .line line
      else
        match e.debugger.reason? e.index with
        | none => .line line
        | some reason => .pause reason

/-- The engine has a line that it may execute or pause at. -/
structure Ready (e : Engine) (line : Line) : Prop where
  unstopped : e.debugger.stopRequested = false
  running : e.running = true
  used_lt : e.machine.used < e.settings.maxCommands
  line_eq : e.program.line? e.index = some line

lemma plan_cases (e : Engine) :
    (∃ line, e.Ready line ∧ e.plan =
      if e.resumeAt = some e.index then .line line
      else
        match e.debugger.reason? e.index with
        | none => .line line
        | some reason => .pause reason) ∨
      e.plan = .stop ∨ e.plan = .idle ∨ e.plan = .exhausted ∨ e.plan = .finish := by
  unfold plan
  by_cases hs : e.debugger.stopRequested = true
  · rw [if_pos hs]
    exact .inr (.inl rfl)
  rw [if_neg hs]
  by_cases hr : (!e.running) = true
  · rw [if_pos hr]
    exact .inr (.inr (.inl rfl))
  rw [if_neg hr]
  by_cases hu : e.settings.maxCommands ≤ e.machine.used
  · rw [if_pos hu]
    exact .inr (.inr (.inr (.inl rfl)))
  rw [if_neg hu]
  cases hl : e.program.line? e.index with
  | none => exact .inr (.inr (.inr (.inr rfl)))
  | some line =>
    have hready : e.Ready line :=
      ⟨by simpa using hs, by simpa using hr, Nat.lt_of_not_le hu, hl⟩
    exact .inl ⟨line, hready, rfl⟩

lemma ready_of_plan_line (h : e.plan = .line line) :
    e.Ready line ∧ (e.resumeAt = some e.index ∨ e.debugger.reason? e.index = none) := by
  rcases e.plan_cases with ⟨line', hready, hp⟩ | hp | hp | hp | hp <;> rw [h] at hp
  · split at hp
    · next hres =>
      cases hp
      exact ⟨hready, .inl hres⟩
    · split at hp
      · next hreason =>
        cases hp
        exact ⟨hready, .inr hreason⟩
      · cases hp
  all_goals cases hp

lemma ready_of_plan_pause {reason : PauseReason} (h : e.plan = .pause reason) :
    (∃ line, e.Ready line) ∧ e.resumeAt ≠ some e.index ∧
      e.debugger.reason? e.index = some reason := by
  rcases e.plan_cases with ⟨line, hready, hp⟩ | hp | hp | hp | hp <;> rw [h] at hp
  · split at hp
    · cases hp
    · next hres =>
      split at hp
      · cases hp
      · next hreason =>
        cases hp
        exact ⟨⟨line, hready⟩, hres, hreason⟩
  all_goals cases hp

lemma plan_ne_idle (h : e.running = true) : e.plan ≠ .idle := by
  grind [plan]

/-- The engine without a request to stop. -/
def heard (e : Engine) : Engine := e.setDebugger e.debugger.takeStop.2

/-- The engine as it executes a line: the line is counted. -/
def counted (e : Engine) : Engine :=
  { e.heard with
    machine := { e.heard.machine with used := e.machine.used + 1 }
    resumeAt := none }

/-- The engine as it takes a pause. -/
def arrested (e : Engine) : Engine :=
  { e.setDebugger { e.debugger.takeStop.2 with breakNext := false } with resumeAt := none }

/-- What executing the line at `index` leads to. -/
def conclude (w : Waiting) (index : Nat) : Except ExecError Directive → Engine → Round
  | .ok .next, e => .again w ({ e with index := index + 1 }.emit (.lineExecuted index))
  | .ok (.jump i), e => .again w ({ e with index := i }.emit (.lineExecuted index))
  | .ok .halt, e => .ended (e.emit (.lineExecuted index)).complete
  | .ok .exit, e => .ended (e.emit (.lineExecuted index)).complete
  | .error error, e =>
    if error.isFatal then .ended ((e.report error).halt error)
    else .again w ({ e.report error with
      errors := (e.report error).errors + 1, index := index + 1 }.emit (.lineExecuted index))

lemma conclude_of_fatal {i : Nat} {error : ExecError} (h : error.isFatal = true) :
    conclude w i (.error error) e = .ended ((e.report error).halt error) :=
  if_pos h

lemma conclude_of_not_fatal {i : Nat} {error : ExecError} (h : ¬ error.isFatal = true) :
    conclude w i (.error error) e = .again w ({ e.report error with
      errors := (e.report error).errors + 1, index := i + 1 }.emit (.lineExecuted i)) :=
  if_neg h

lemma runLine_eq (w : Waiting) (line : Line) (e : Engine) :
    e.runLine w line =
      let x := { e with machine := { e.machine with used := e.machine.used + 1 } }.execute line.text
      conclude w e.index x.1 x.2 := by
  unfold runLine
  dsimp only
  rcases execute _ line.text with ⟨error | d, e'⟩
  · rfl
  · cases d <;> rfl

/-- **What a round does.** -/
theorem round_eq (w : Waiting) (e : Engine) :
    e.round w =
      match e.plan with
      | .stop => .ended e.heard.finishStopped
      | .idle => .ended (.idle, e.heard)
      | .exhausted => .ended ((e.heard.report (.runaway e.settings.maxCommands)).halt
          (.runaway e.settings.maxCommands))
      | .finish => .ended e.heard.complete
      | .pause reason => e.arrested.pause w reason
      | .line line =>
        conclude w e.index (e.counted.execute line.text).1 (e.counted.execute line.text).2 := by
  unfold round plan
  dsimp only
  -- the plan asks what the round asks, in the same order
  by_cases hs : e.debugger.stopRequested = true
  · rw [if_pos hs]
    exact if_pos hs
  rw [if_neg hs]
  refine (if_neg hs).trans ?_
  by_cases hr : (!e.running) = true
  · rw [if_pos hr]
    exact if_pos hr
  rw [if_neg hr]
  refine (if_neg hr).trans ?_
  by_cases hu : e.settings.maxCommands ≤ e.machine.used
  · rw [if_pos hu]
    exact if_pos hu
  rw [if_neg hu]
  refine (if_neg hu).trans ?_
  have hline : (e.setDebugger e.debugger.takeStop.2).program.line?
      (e.setDebugger e.debugger.takeStop.2).index = e.program.line? e.index := rfl
  rw [hline]
  cases e.program.line? e.index with
  | none => rfl
  | some line =>
    dsimp only
    -- whether to pause is asked only if the line is not the one resumed at
    by_cases hres : e.resumeAt = some e.index
    · rw [if_pos hres]
      exact (if_pos hres).trans (runLine_eq w line _)
    rw [if_neg hres]
    refine (if_neg hres).trans ?_
    split
    · next d h =>
      obtain ⟨hp, rfl⟩ := Debugger.of_pauseReason_none h
      have hp' : e.debugger.reason? e.index = none := hp
      rw [hp']
      exact runLine_eq w line _
    · next reason d h =>
      obtain ⟨hp, rfl⟩ := Debugger.of_pauseReason_some h
      have hp' : e.debugger.reason? e.index = some reason := hp
      rw [hp']
      rfl

/-! ### What a round leaves -/

/-- The engine that a round leaves. -/
def Round.engine : Round → Engine
  | .ended result => result.2
  | .again _ e => e

/-- What stays the same while a line is executed. -/
def environment (e : Engine) : Environment := ⟨e.program, e.settings, e.index⟩

/-- What a text does as a command. -/
def effect (e : Engine) (t : Text) : EStateM.Result ExecError Machine Directive :=
  Courseware.execute e.settings.maxCallDepth t e.environment e.machine

lemma execute_of_ok {t : Text} {d : Directive} {m : Machine} (h : e.effect t = .ok d m) :
    e.execute t = (.ok d, { e with machine := { m with verdict := m.verdict.settle } }) := by
  unfold effect environment at h
  unfold execute
  rw [h]

lemma execute_of_error {t : Text} {error : ExecError} {m : Machine}
    (h : e.effect t = .error error m) :
    e.execute t = (.error error, { e with machine := { m with verdict := m.verdict.settle } }) := by
  unfold effect environment at h
  unfold execute
  rw [h]

lemma execute_snd (e : Engine) (t : Text) :
    (e.execute t).2 = { e with machine := { final (e.effect t) with
      verdict := (final (e.effect t)).verdict.settle } } := by
  cases h : e.effect t with
  | ok d m => rw [execute_of_ok h]; rfl
  | error error m => rw [execute_of_error h]; rfl

lemma settings_execute (e : Engine) (t : Text) : (e.execute t).2.settings = e.settings := by
  rw [execute_snd]

lemma used_le_execute (e : Engine) (t : Text) :
    e.machine.used ≤ (e.execute t).2.machine.used := by
  rw [execute_snd]
  exact (composed_execute _ t).used_le e.environment e.machine

lemma used_execute_le (t : Text) (h : e.machine.used ≤ e.settings.maxCommands) :
    (e.execute t).2.machine.used ≤ e.settings.maxCommands := by
  rw [execute_snd]
  exact (composed_execute _ t).used_le_limit h

lemma engine_conclude (w : Waiting) (i : Nat) (x : Except ExecError Directive) (e : Engine) :
    (conclude w i x e).engine.settings = e.settings ∧
      (conclude w i x e).engine.machine.used = e.machine.used := by
  unfold conclude
  split
  · exact ⟨rfl, rfl⟩
  · exact ⟨rfl, rfl⟩
  · exact ⟨rfl, rfl⟩
  · exact ⟨rfl, rfl⟩
  · split <;> exact ⟨rfl, rfl⟩

/-- The engine that is paused. -/
def paused (e : Engine) (reason : PauseReason) : Engine :=
  let e := e.setDebugger (e.debugger.beginPause e.index)
  match reason with
  | .breakpoint => e.emit (.breakpointHit e.index)
  | .step => e

lemma paused_same (e : Engine) (reason : PauseReason) :
    (e.paused reason).settings = e.settings ∧
      (e.paused reason).machine.used = e.machine.used ∧ (e.paused reason).index = e.index := by
  cases reason <;> exact ⟨rfl, rfl, rfl⟩

lemma pause_yield (e : Engine) (reason : PauseReason) :
    e.pause .yield reason = .ended (.paused (e.paused reason).index, e.paused reason) := by
  cases reason <;> rfl

/-- What a blocked engine does with a signal. -/
def obey (e : Engine) (left : List Debugger.Action) (d : Debugger) : Signal → Round
  | .stop => .ended (e.setDebugger d.takeStop.2).finishStopped
  | .step => .again (.block left) { e.setDebugger d.requestBreak with resumeAt := some e.index }
  | .resume => .again (.block left) { e.setDebugger d with resumeAt := some e.index }

lemma pause_block {answers left : List Debugger.Action} {reason : PauseReason} {signal : Signal}
    {d : Debugger} (h : (e.paused reason).debugger.await answers = (signal, left, d)) :
    e.pause (.block answers) reason = (e.paused reason).obey left d signal := by
  unfold pause
  dsimp only
  split
  · next hr =>
    cases hr.symm.trans h
    rfl
  · next hr =>
    cases hr.symm.trans h
    rfl
  · next hr =>
    cases hr.symm.trans h
    rfl

/-- A pause counts nothing. -/
lemma engine_pause (w : Waiting) (reason : PauseReason) (e : Engine) :
    (e.pause w reason).engine.settings = e.settings ∧
      (e.pause w reason).engine.machine.used = e.machine.used := by
  obtain ⟨hs, hu, -⟩ := e.paused_same reason
  cases w with
  | yield =>
    rw [pause_yield]
    exact ⟨hs, hu⟩
  | block answers =>
    rcases hd : (e.paused reason).debugger.await answers with ⟨signal, left, d⟩
    rw [pause_block hd]
    cases signal <;> exact ⟨hs, hu⟩

/-- After a pause the line is executed. -/
lemma pause_again {reason : PauseReason} (h : e.pause w reason = .again w' e') :
    e'.index = e.index ∧ e'.resumeAt = some e'.index := by
  obtain ⟨-, -, hi⟩ := e.paused_same reason
  cases w with
  | yield =>
    rw [pause_yield] at h
    cases h
  | block answers =>
    rcases hd : (e.paused reason).debugger.await answers with ⟨signal, left, d⟩
    rw [pause_block hd] at h
    cases signal with
    | stop => cases h
    | step =>
      cases h
      exact ⟨hi, rfl⟩
    | resume =>
      cases h
      exact ⟨hi, rfl⟩

lemma settings_round (w : Waiting) (e : Engine) : (e.round w).engine.settings = e.settings := by
  rw [round_eq]
  cases e.plan with
  | pause reason => exact (engine_pause w reason e.arrested).1
  | line line => exact (engine_conclude _ _ _ _).1.trans (settings_execute _ _)
  | _ => rfl

/-- The program stays the same while it runs. -/
lemma program_round (w : Waiting) (e : Engine) : (e.round w).engine.program = e.program := by
  have hconclude : ∀ i x (s : Engine), (conclude w i x s).engine.program = s.program := by
    intro i x s
    unfold conclude
    split
    · rfl
    · rfl
    · rfl
    · rfl
    · split <;> rfl
  have hpaused : ∀ (s : Engine) reason, (s.paused reason).program = s.program := by
    intro s reason
    cases reason <;> rfl
  rw [round_eq]
  cases e.plan with
  | pause reason =>
    cases w with
    | yield =>
      dsimp only
      rw [pause_yield]
      exact hpaused e.arrested reason
    | block answers =>
      rcases hd : (e.arrested.paused reason).debugger.await answers with ⟨signal, left, d⟩
      dsimp only
      rw [pause_block hd]
      cases signal <;> exact hpaused e.arrested reason
  | line line =>
    refine (hconclude e.index _ _).trans ?_
    rw [execute_snd]
    rfl
  | _ => rfl

/-- **A round keeps to the limit of commands.** -/
theorem used_round_le (w : Waiting) (h : e.machine.used ≤ e.settings.maxCommands) :
    (e.round w).engine.machine.used ≤ e.settings.maxCommands := by
  rw [round_eq]
  cases hp : e.plan with
  | pause reason => exact Nat.le_trans (Nat.le_of_eq (engine_pause w reason e.arrested).2) h
  | line line =>
    have hlt : e.counted.machine.used ≤ e.counted.settings.maxCommands :=
      (ready_of_plan_line hp).1.used_lt
    exact Nat.le_trans (Nat.le_of_eq (engine_conclude _ _ _ _).2) (used_execute_le line.text hlt)
  | _ => exact h

lemma settings_of_again (h : e.round w = .again w' e') : e'.settings = e.settings := by
  have hs := settings_round w e
  rwa [h] at hs

lemma program_of_again (h : e.round w = .again w' e') : e'.program = e.program := by
  have hp := program_round w e
  rwa [h] at hp

lemma used_of_again (h : e.round w = .again w' e')
    (hu : e.machine.used ≤ e.settings.maxCommands) :
    e'.machine.used ≤ e'.settings.maxCommands := by
  have hle := used_round_le w hu
  rw [h] at hle
  rw [settings_of_again h]
  exact hle

/-- The run goes on after a line, or after a pause that did not come back to the host. -/
lemma plan_of_again (h : e.round w = .again w' e') :
    (∃ line, e.plan = .line line ∧ conclude w e.index (e.counted.execute line.text).1
      (e.counted.execute line.text).2 = .again w' e') ∨
      ∃ reason, e.plan = .pause reason ∧ e.arrested.pause w reason = .again w' e' := by
  rw [round_eq] at h
  cases hp : e.plan with
  | line line =>
    rw [hp] at h
    exact .inl ⟨line, rfl, h⟩
  | pause reason =>
    rw [hp] at h
    exact .inr ⟨reason, rfl, h⟩
  | stop => rw [hp] at h; cases h
  | idle => rw [hp] at h; cases h
  | exhausted => rw [hp] at h; cases h
  | finish => rw [hp] at h; cases h

/-! ### The loop without a bound -/

/-- How many rounds there can still be. -/
def rank (e : Engine) : Nat :=
  2 * (e.settings.maxCommands - e.machine.used) + if e.resumeAt = some e.index then 1 else 2

lemma rank_le_roundsLeft (e : Engine) : e.rank ≤ e.roundsLeft := by
  unfold rank roundsLeft
  split <;> omega

/-- A round after which the run goes on leaves fewer rounds. -/
lemma rank_lt_of_again (h : e.round w = .again w' e') : e'.rank < e.rank := by
  have hs := settings_of_again h
  rcases plan_of_again h with ⟨line, hp, hc⟩ | ⟨reason, hp, hpause⟩
  · -- the line has used up a command
    have hlt := (ready_of_plan_line hp).1.used_lt
    have hle : e.machine.used + 1 ≤ (e.counted.execute line.text).2.machine.used :=
      used_le_execute e.counted line.text
    have hu : e'.machine.used = (e.counted.execute line.text).2.machine.used := by
      have hu := (engine_conclude w e.index (e.counted.execute line.text).1
        (e.counted.execute line.text).2).2
      rwa [hc] at hu
    unfold rank
    rw [hs]
    split <;> split <;> omega
  · -- the line is still to be executed, but now without a pause
    have hfresh := (ready_of_plan_pause hp).2.1
    have hres := (pause_again hpause).2
    have hu : e'.machine.used = e.machine.used := by
      have hu := (engine_pause w reason e.arrested).2
      rwa [hpause] at hu
    unfold rank
    rw [if_pos hres, if_neg hfresh, hs, hu]
    omega

lemma rank_pos (e : Engine) : 0 < e.rank := by
  unfold rank
  split <;> omega

lemma runRounds_of_rank {n k : Nat} (hn : e.rank ≤ n) (hk : e.rank ≤ k) :
    runRounds n w e = runRounds k w e := by
  induction n generalizing k w e with
  | zero => exact absurd hn (Nat.not_le.2 e.rank_pos)
  | succ n ih =>
    have hpos := e.rank_pos
    obtain ⟨k, rfl⟩ : ∃ k', k = k' + 1 := ⟨k - 1, by omega⟩
    rw [runRounds, runRounds]
    cases hr : e.round w with
    | ended r => rfl
    | again w' e' =>
      have hlt := rank_lt_of_again hr
      exact ih (by omega) (by omega)

/-- **The number of rounds is no bound of its own.** A run goes on for as long as its rounds
say so. -/
theorem go_eq (w : Waiting) (e : Engine) :
    e.go w =
      match e.round w with
      | .ended r => r
      | .again w' e' => e'.go w' := by
  have hpos : e.roundsLeft = (2 * (e.settings.maxCommands - e.machine.used) + 1) + 1 := rfl
  unfold go
  rw [hpos, runRounds]
  cases hr : e.round w with
  | ended r => rfl
  | again w' e' =>
    have hlt := rank_lt_of_again hr
    have hle := e.rank_le_roundsLeft
    rw [hpos] at hle
    exact runRounds_of_rank (by omega) e'.rank_le_roundsLeft

/-- To prove something of every run, prove it of an engine from what holds after its round. -/
theorem go_induction {P : Waiting → Engine → Prop}
    (step : ∀ w e, (∀ w' e', e.round w = .again w' e' → P w' e') → P w e) (w : Waiting)
    (e : Engine) : P w e := by
  induction hn : e.rank using Nat.strongRecOn generalizing w e with
  | ind n ih =>
    subst hn
    exact step w e fun w' e' h => ih e'.rank (rank_lt_of_again h) w' e' rfl

/-- Rounds that go on, one after the other. -/
inductive Reaches : Waiting → Engine → Waiting → Engine → Prop where
  | here {w : Waiting} {e : Engine} : Reaches w e w e
  | round {w w' w'' : Waiting} {e e' e'' : Engine} (h : e.round w = .again w' e')
      (hr : Reaches w' e' w'' e'') : Reaches w e w'' e''

/-- The loop without a bound: rounds until one of them ends the run. -/
inductive Runs : Waiting → Engine → Outcome × Engine → Prop where
  | ended {w : Waiting} {e : Engine} {r : Outcome × Engine} (h : e.round w = .ended r) :
      Runs w e r
  | again {w w' : Waiting} {e e' : Engine} {r : Outcome × Engine}
      (h : e.round w = .again w' e') (hr : Runs w' e' r) : Runs w e r

theorem runs_go (w : Waiting) (e : Engine) : Runs w e (e.go w) := by
  induction w, e using go_induction with
  | step w e ih =>
    rw [go_eq]
    cases hr : e.round w with
    | ended r => exact .ended hr
    | again w' e' => exact .again hr (ih w' e' hr)

lemma settings_of_runs (h : Runs w e r) : r.2.settings = e.settings := by
  induction h with
  | @ended w e r h =>
    have hset := settings_round w e
    rw [h] at hset
    exact hset
  | again h _ ih => exact ih.trans (settings_of_again h)

lemma Reaches.go_eq (h : Reaches w e w' e') : e.go w = e'.go w' := by
  induction h with
  | here => rfl
  | round h _ ih =>
    rw [Engine.go_eq, h]
    exact ih

lemma Reaches.settings (h : Reaches w e w' e') : e'.settings = e.settings := by
  induction h with
  | here => rfl
  | round h _ ih => exact ih.trans (settings_of_again h)

lemma Reaches.used_le (h : Reaches w e w' e') (hu : e.machine.used ≤ e.settings.maxCommands) :
    e'.machine.used ≤ e'.settings.maxCommands := by
  induction h with
  | here => exact hu
  | round h _ ih => exact ih (used_of_again h hu)

/-! ### Calls of the host -/

/-- By what a host lets the program run. -/
inductive Call where
  | run
  | resume
  | step
deriving DecidableEq

def call (e : Engine) : Call → Outcome × Engine
  | .run => e.run
  | .resume => e.resume
  | .step => e.step

/-- How a run from the first line takes its pauses, if the host gives these answers. -/
def waiting (e : Engine) (answers : List Debugger.Action) : Waiting :=
  match e.settings.suspend with
  | .yield => .yield
  | .block => .block answers

lemma drive_eq (e : Engine) (answers : List Debugger.Action) :
    e.drive answers = e.start.go (e.waiting answers) := by
  unfold drive waiting
  cases e.settings.suspend <;> rfl

/-- The engine as it goes on after a pause. -/
def resumed (e : Engine) : Engine :=
  match e.debugger.pausedAt with
  | some i => { e.setDebugger e.debugger.endPause with resumeAt := some i }
  | none => e

/-- The engine as it executes one line. -/
def stepped (e : Engine) : Engine :=
  { e.setDebugger e.debugger.endPause.requestBreak with
    resumeAt := some (e.debugger.pausedAt.getD e.index) }

/-- Where the rounds of a call begin. There are none if nothing is to be resumed. -/
def entry (e : Engine) : Call → Option Engine
  | .run => some e.start
  | .resume => if e.running then some e.resumed else none
  | .step => some (if e.running then e else e.start).stepped

lemma resume_eq (e : Engine) :
    e.resume = if e.running then e.resumed.go .yield else (.idle, e) := by
  unfold resume resumed
  cases e.debugger.pausedAt <;> rfl

lemma call_of_entry {c : Call} {s : Engine} (hy : e.settings.suspend = .yield)
    (h : e.entry c = some s) : e.call c = s.go .yield := by
  cases c with
  | run =>
    cases h
    unfold call run drive
    rw [hy]
  | step =>
    cases h
    rfl
  | resume =>
    change e.resume = s.go .yield
    change (if e.running then some e.resumed else none) = some s at h
    rw [resume_eq]
    split at h
    · next hr =>
      cases h
      exact if_pos hr
    · cases h

lemma call_of_no_entry {c : Call} (h : e.entry c = none) : e.call c = (.idle, e) := by
  cases c with
  | run => cases h
  | step => cases h
  | resume =>
    change e.resume = (.idle, e)
    change (if e.running then some e.resumed else none) = none at h
    rw [resume_eq]
    split at h
    · cases h
    · next hr => exact if_neg hr

lemma resumed_same (e : Engine) :
    e.resumed.settings = e.settings ∧ e.resumed.machine.used = e.machine.used := by
  unfold resumed
  split <;> exact ⟨rfl, rfl⟩

/-- A program is loaded onto the host's engine, and does not run yet. -/
lemma of_load {source : Text} (h : e.load source = .ok e') :
    e'.settings = e.settings ∧ e'.machine.used = 0 ∧ e'.machine.bus = e.machine.bus ∧
      e'.running = false := by
  unfold load at h
  cases hp : Program.load source with
  | error error =>
    rw [hp] at h
    cases h
  | ok p =>
    rw [hp] at h
    cases h
    exact ⟨rfl, rfl, rfl, rfl⟩

/-- A call begins within the limit of commands. -/
lemma entry_used {c : Call} {s : Engine} (h : e.entry c = some s)
    (hu : e.machine.used ≤ e.settings.maxCommands) :
    s.settings = e.settings ∧ s.machine.used ≤ s.settings.maxCommands := by
  cases c with
  | run =>
    cases h
    exact ⟨rfl, Nat.zero_le _⟩
  | step =>
    cases h
    unfold stepped
    dsimp only
    split
    · -- a program that runs is continued with the commands it has used
      exact ⟨rfl, hu⟩
    · exact ⟨rfl, Nat.zero_le _⟩
  | resume =>
    change (if e.running then some e.resumed else none) = some s at h
    split at h
    · cases h
      obtain ⟨hs, hr⟩ := e.resumed_same
      rw [hs, hr]
      exact ⟨rfl, hu⟩
    · cases h

end Engine

end Courseware
