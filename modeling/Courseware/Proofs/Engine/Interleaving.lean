import Courseware.Proofs.Engine.Rounds

/-!
A blocking engine and the handles of its debugger, side by side.

Every operation on the debugger is atomic. Between two operations of the engine any number of
handles may put in theirs, and while an event is told or a line is executed they act as well, as
subscribers do. The loop of the engine is cut up into the moves from one operation to the next. A
run in which the host acts only when the engine waits for it is one of the courses that the moves
allow.
-/

namespace Courseware

namespace Debugger

/-- Several actions, one after the other. -/
def performAll (d : Debugger) (as : List Action) : Debugger := as.foldl perform d

/-- Whether an action wakes an engine that waits for a signal. -/
def wakes (d : Debugger) : Action → Bool
  | .stop => true
  | .step => d.pausedAt.isSome
  | .resume => d.pausedAt.isSome
  | _ => false

end Debugger

open Debugger (Action)

namespace Interleaving

/-- Where an engine is in its loop. -/
inductive Phase where
  /-- The run has been reset. -/
  | starting
  | top
  /-- No request to stop was found. -/
  | checked
  /-- A line is to be executed. -/
  | line (line : Line)
  /-- A pause is to begin. -/
  | pausing (reason : PauseReason)
  /-- The pause has begun. -/
  | announcing (reason : PauseReason)
  /-- A signal is to be looked for. -/
  | waiting
  | asleep
  /-- The pause is over. -/
  | signalled (s : Signal)
  /-- The run is to end as stopped. -/
  | stopping
  | ended (o : Outcome)

/-- What wakes a sleeping engine lets it look for a signal. -/
def Phase.roused (wakes : Bool) : Phase → Phase
  | .asleep => if wakes then .waiting else .asleep
  | ph => ph

/-- An engine somewhere in its loop. -/
structure Process where
  phase : Phase
  engine : Engine

/-- What can happen next. Where time passes, actions `as` are performed in the meantime. -/
inductive Move where
  /-- A handle acts. -/
  | host (a : Action)
  /-- The start of the run or a pause is told. -/
  | tell (as : List Action)
  /-- The engine looks for a request to stop. -/
  | check (found : Bool)
  /-- The engine looks for what is to be done. -/
  | look
  /-- The engine begins a pause. -/
  | pause
  /-- The engine looks for a signal. -/
  | poll (found : Option Signal)
  /-- The engine wakes up by itself. -/
  | wake
  /-- The engine does as it is signalled. -/
  | obey
  /-- The engine executes a line. -/
  | line (as : List Action)
  /-- The engine ends the run. -/
  | finish (as : List Action)

/-- What is done to the debugger from outside. -/
def Move.actions : Move → List Action
  | .host a => [a]
  | .tell as => as
  | .line as => as
  | .finish as => as
  | _ => []

def Move.isEngine : Move → Bool
  | .host _ => false
  | _ => true

/-- Where a round leads. -/
def Process.ofRound : Engine.Round → Process
  | .ended (o, e) => ⟨.ended o, e⟩
  | .again _ e => ⟨.top, e⟩

def Process.setDebugger (s : Process) (d : Debugger) : Process :=
  ⟨s.phase, s.engine.setDebugger d⟩

/-- How the run ends if there is nothing to be executed, whether or not a stop is requested. -/
def ending? (e : Engine) : Option (Outcome × Engine) :=
  match e.heard.plan with
  | .idle => some (.idle, e)
  | .exhausted => some ((e.report (.runaway e.settings.maxCommands)).halt
      (.runaway e.settings.maxCommands))
  | .finish => some e.complete
  | _ => none

/-- Tells of a breakpoint. -/
def announced (reason : PauseReason) (e : Engine) : Engine :=
  match reason with
  | .breakpoint => e.emit (.breakpointHit e.index)
  | .step => e

/-- The moves of the engine from one operation on the debugger to the next, and those of the
handles, which can be made at any time. -/
inductive Moves : Process → Move → Process → Prop where
  | host {ph : Phase} {e : Engine} (a : Action) :
      Moves ⟨ph, e⟩ (.host a) ⟨ph.roused (e.debugger.wakes a), e.perform a⟩
  | start {e : Engine} (as : List Action) :
      Moves ⟨.starting, e⟩ (.tell as)
        ⟨.top, (e.emit .programStarted).setDebugger (e.debugger.performAll as)⟩
  | check {e : Engine} :
      Moves ⟨.top, e⟩ (.check e.debugger.stopRequested)
        ⟨if e.debugger.stopRequested then .stopping else .checked, e.heard⟩
  | line {e : Engine} {l : Line} (h : e.heard.plan = .line l) :
      Moves ⟨.checked, e⟩ .look ⟨.line l, { e with resumeAt := none }⟩
  | pause {e : Engine} {reason : PauseReason} (h : e.heard.plan = .pause reason) :
      Moves ⟨.checked, e⟩ .look ⟨.pausing reason,
        { e.setDebugger { e.debugger with breakNext := false } with resumeAt := none }⟩
  | finish {e : Engine} {r : Outcome × Engine} (h : ending? e = some r) (as : List Action) :
      Moves ⟨.checked, e⟩ (.finish as)
        ⟨.ended r.1, r.2.setDebugger (e.debugger.performAll as)⟩
  | run {e : Engine} {l : Line} (as : List Action) :
      Moves ⟨.line l, e⟩ (.line as)
        ((Process.ofRound (e.runLine (.block []) l)).setDebugger (e.debugger.performAll as))
  | arrest {e : Engine} {reason : PauseReason} :
      Moves ⟨.pausing reason, e⟩ .pause
        ⟨.announcing reason, e.setDebugger (e.debugger.beginPause e.index)⟩
  | announce {e : Engine} {reason : PauseReason} (as : List Action) :
      Moves ⟨.announcing reason, e⟩ (.tell as)
        ⟨.waiting, (announced reason e).setDebugger (e.debugger.performAll as)⟩
  | signal {e : Engine} {s : Signal} {d : Debugger} (h : e.debugger.poll = some (s, d)) :
      Moves ⟨.waiting, e⟩ (.poll (some s)) ⟨.signalled s, e.setDebugger d⟩
  | sleep {e : Engine} (h : e.debugger.poll = none) :
      Moves ⟨.waiting, e⟩ (.poll none) ⟨.asleep, e⟩
  | wake {e : Engine} : Moves ⟨.asleep, e⟩ .wake ⟨.waiting, e⟩
  | obeyStop {e : Engine} : Moves ⟨.signalled .stop, e⟩ .obey ⟨.stopping, e.heard⟩
  | obeyStep {e : Engine} :
      Moves ⟨.signalled .step, e⟩ .obey
        ⟨.top, { e.setDebugger e.debugger.requestBreak with resumeAt := some e.index }⟩
  | obeyResume {e : Engine} :
      Moves ⟨.signalled .resume, e⟩ .obey ⟨.top, { e with resumeAt := some e.index }⟩
  | stop {e : Engine} (as : List Action) :
      Moves ⟨.stopping, e⟩ (.finish as)
        ⟨.ended .stopped, e.finishStopped.2.setDebugger (e.debugger.endPause.performAll as)⟩

/-- Moves that follow each other. -/
inductive Course : Process → List Move → Process → Prop where
  | nil {s : Process} : Course s [] s
  | cons {s s' t : Process} {μ : Move} {μs : List Move} (h : Moves s μ s')
      (hc : Course s' μs t) : Course s (μ :: μs) t

/-- The process that begins with a run: what belongs to the run before is forgotten. -/
def begun (e : Engine) : Process := ⟨.starting, { e.clearRun with running := true }⟩

namespace Course

variable {s s' t : Process} {μ : Move} {μs μs' : List Move}

lemma single (h : Moves s μ s') : Course s [μ] s' := .cons h .nil

lemma append (h : Course s μs s') (h' : Course s' μs' t) : Course s (μs ++ μs') t := by
  induction h with
  | nil => exact h'
  | cons hm _ ih => exact .cons hm (ih h')

end Course

/-! ### What is done to the debugger in the meantime -/

/-- Nothing has been done to the debugger but actions from outside. -/
def Acted (d d' : Debugger) : Prop := ∃ as, d' = d.performAll as

namespace Acted

variable {d d' d'' : Debugger} {w : Waiting} {e : Engine}

lemma refl (d : Debugger) : Acted d d := ⟨[], rfl⟩

lemma trans (h : Acted d d') (h' : Acted d' d'') : Acted d d'' := by
  obtain ⟨as, rfl⟩ := h
  obtain ⟨as', rfl⟩ := h'
  exact ⟨as ++ as', by rw [Debugger.performAll, Debugger.performAll, Debugger.performAll,
    List.foldl_append]⟩

lemma machine_emit (m : Machine) (ev : Event) : Acted m.debugger (m.emit ev).debugger := by
  have hfold : ∀ (rs : List (Nat × Reaction)) (d : Debugger),
      Acted d (rs.foldl (fun d r => Machine.react d r.2) d) := by
    intro rs
    induction rs with
    | nil => exact refl
    | cons r rs ih =>
      intro d
      refine trans ?_ (ih (Machine.react d r.2))
      cases hr : r.2 with
      | act a => exact ⟨[a], rfl⟩
      | _ => exact refl d
  exact hfold (m.bus.emit ev).1 m.debugger

lemma emit (e : Engine) (ev : Event) : Acted e.debugger (e.emit ev).debugger :=
  machine_emit e.machine ev

/-- Commands act on the debugger by events only. -/
lemma kept (limit : Nat) : Exec.Kept limit fun m m' => Acted m.debugger m'.debugger where
  refl m := refl m.debugger
  trans := trans
  control m _ := refl m.debugger
  depth m _ := refl m.debugger
  charge m _ := refl m.debugger
  setVariable m name v := machine_emit { m with vars := m.vars.set name v } _
  print m _ := machine_emit m _
  host m _ := refl m.debugger
  asked m _ _ := refl m.debugger

lemma execute (e : Engine) (t : Text) : Acted e.debugger (e.execute t).2.debugger := by
  rw [Engine.execute_snd]
  exact Exec.Composed.keeps (kept e.environment.settings.maxCommands)
    (composed_execute e.settings.maxCallDepth t) e.machine

lemma report (e : Engine) (error : ExecError) : Acted e.debugger (e.report error).debugger :=
  emit e _

lemma complete (e : Engine) : Acted e.debugger e.complete.2.debugger :=
  emit { e with running := false } _

lemma halt (e : Engine) (error : ExecError) : Acted e.debugger (e.halt error).2.debugger :=
  emit { e with running := false } _

lemma conclude (w : Waiting) (i : Nat) (x : Except ExecError Directive) (e : Engine) :
    Acted e.debugger (Engine.conclude w i x e).engine.debugger := by
  unfold Engine.conclude
  split
  · exact emit { e with index := i + 1 } _
  · next j => exact emit { e with index := j } _
  · exact (emit e _).trans (complete _)
  · exact (emit e _).trans (complete _)
  · next error =>
    split
    · exact (report e error).trans (halt _ error)
    · exact (report e error).trans (emit { e.report error with
        errors := (e.report error).errors + 1, index := i + 1 } _)

lemma runLine (w : Waiting) (l : Line) (e : Engine) :
    Acted e.debugger (e.runLine w l).engine.debugger := by
  rw [Engine.runLine_eq]
  exact (execute { e with machine := { e.machine with used := e.machine.used + 1 } } l.text).trans
    (conclude w e.index _ _)

end Acted

/-! ### Runs in which the host acts only when it is waited for -/

variable {e : Engine} {answers left : List Action}

lemma takeStop_eq_self (h : e.debugger.stopRequested = false) :
    e.debugger.takeStop.2 = e.debugger := by
  change { e.debugger with stopRequested := false } = e.debugger
  rw [← h]

lemma heard_eq_self (h : e.debugger.stopRequested = false) : e.heard = e := by
  rw [Engine.heard, takeStop_eq_self h]
  rfl

lemma plan_eq_stop_iff : e.plan = .stop ↔ e.debugger.stopRequested = true := by
  grind [Engine.plan]

lemma moves_check (h : e.debugger.stopRequested = false) :
    Moves ⟨.top, e⟩ (.check false) ⟨.checked, e⟩ := by
  have hm := @Moves.check e
  rwa [h, heard_eq_self h] at hm

/-- The run ends as the round says, and in the meantime there is what the round does to the
debugger. -/
lemma exists_moves_finish {r : Outcome × Engine} (h : ending? e = some r) :
    ∃ as, Moves ⟨.checked, e⟩ (.finish as) ⟨.ended r.1, r.2⟩ := by
  have hacted : Acted e.debugger r.2.debugger := by
    unfold ending? at h
    split at h
    · cases h
      exact .refl _
    · cases h
      exact (Acted.report e _).trans (.halt _ _)
    · cases h
      exact .complete e
    · cases h
  obtain ⟨as, has⟩ := hacted
  refine ⟨as, ?_⟩
  have hm := Moves.finish h as
  rwa [← has] at hm

lemma exists_moves_stop (e : Engine) :
    ∃ as, Moves ⟨.stopping, e⟩ (.finish as) ⟨.ended .stopped, e.finishStopped.2⟩ := by
  have hacted : Acted e.debugger.endPause e.finishStopped.2.debugger :=
    .machine_emit ({ e with running := false }.setDebugger e.debugger.endPause).machine _
  obtain ⟨as, has⟩ := hacted
  refine ⟨as, ?_⟩
  have hm := @Moves.stop e as
  rwa [← has] at hm

lemma exists_moves_run (e : Engine) (l : Line) :
    ∃ as, Moves ⟨.line l, e⟩ (.line as) (.ofRound (e.runLine (.block []) l)) := by
  obtain ⟨as, has⟩ := Acted.runLine (.block []) l e
  refine ⟨as, ?_⟩
  have hm := @Moves.run e l as
  rw [← has] at hm
  cases hr : e.runLine (.block []) l with
  | ended r =>
    rw [hr] at hm
    exact hm
  | again w' e' =>
    rw [hr] at hm
    exact hm

lemma exists_moves_announce (e : Engine) (reason : PauseReason) :
    ∃ as, Moves ⟨.announcing reason, e⟩ (.tell as) ⟨.waiting, announced reason e⟩ := by
  have hacted : Acted e.debugger (announced reason e).debugger := by
    cases reason with
    | breakpoint => exact .emit e _
    | step => exact .refl _
  obtain ⟨as, has⟩ := hacted
  refine ⟨as, ?_⟩
  have hm := @Moves.announce e reason as
  rwa [← has] at hm

/-- A blocked engine, and a host that gives its answers one after the other. -/
lemma exists_course_await {s : Signal} {d : Debugger}
    (h : e.debugger.await answers = (s, left, d)) :
    ∃ μs, Course ⟨.waiting, e⟩ μs ⟨.signalled s, e.setDebugger d⟩ := by
  induction answers generalizing e with
  | nil =>
    unfold Debugger.await at h
    split at h
    · next hp =>
      cases h
      exact ⟨_, .single (.signal hp)⟩
    · next hp =>
      cases h
      -- no answer is left: the host stops the engine
      exact ⟨_, .cons (.sleep hp) (.cons (.host .stop) (.single (.signal rfl)))⟩
  | cons a answers ih =>
    unfold Debugger.await at h
    split at h
    · next hp =>
      cases h
      exact ⟨_, .single (.signal hp)⟩
    · next hp =>
      obtain ⟨μs, hc⟩ := @ih (e.perform a) h
      -- an answer may wake the engine, or it wakes by itself
      have hwait : ∃ μs, Course ⟨.asleep, e⟩ μs ⟨.waiting, e.perform a⟩ := by
        have hm := @Moves.host .asleep e a
        by_cases hw : e.debugger.wakes a = true
        · rw [hw] at hm
          exact ⟨_, .single hm⟩
        · rw [Bool.not_eq_true] at hw
          rw [hw] at hm
          exact ⟨_, .cons hm (.single .wake)⟩
      obtain ⟨μs', hc'⟩ := hwait
      exact ⟨_, .cons (.sleep hp) (hc'.append hc)⟩

lemma exists_course_obey (e : Engine) (left : List Action) (d : Debugger) (s : Signal) :
    ∃ μs, Course ⟨.signalled s, e.setDebugger d⟩ μs (.ofRound (e.obey left d s)) := by
  cases s with
  | stop =>
    obtain ⟨as, hm⟩ := exists_moves_stop (e.setDebugger d).heard
    exact ⟨_, .cons .obeyStop (.single hm)⟩
  | step => exact ⟨_, .single .obeyStep⟩
  | resume => exact ⟨_, .single .obeyResume⟩

lemma exists_course_pause (e : Engine) (answers : List Action) (reason : PauseReason) :
    ∃ μs, Course ⟨.pausing reason, e⟩ μs (.ofRound (e.pause (.block answers) reason)) := by
  rcases hd : (e.paused reason).debugger.await answers with ⟨s, left, d⟩
  rw [Engine.pause_block hd]
  have hpaused : e.paused reason =
      announced reason (e.setDebugger (e.debugger.beginPause e.index)) := by
    cases reason <;> rfl
  obtain ⟨as, hm⟩ := exists_moves_announce (e.setDebugger (e.debugger.beginPause e.index)) reason
  rw [← hpaused] at hm
  obtain ⟨μs, hc⟩ := exists_course_await hd
  obtain ⟨μs', hc'⟩ := exists_course_obey (e.paused reason) left d s
  exact ⟨_, .cons .arrest (.cons hm (hc.append hc'))⟩

/-- How the answers are waited for makes no difference to where a line leads. -/
lemma ofRound_conclude (w w' : Waiting) (i : Nat) (x : Except ExecError Directive) (e : Engine) :
    Process.ofRound (Engine.conclude w i x e) = .ofRound (Engine.conclude w' i x e) := by
  unfold Engine.conclude
  split
  · rfl
  · rfl
  · rfl
  · rfl
  · split <;> rfl

/-- What a round does is a course of moves. -/
lemma exists_course_round (e : Engine) (answers : List Action) :
    ∃ μs, Course ⟨.top, e⟩ μs (.ofRound (e.round (.block answers))) := by
  rw [Engine.round_eq]
  by_cases hstop : e.plan = .stop
  · have hm := @Moves.check e
    rw [plan_eq_stop_iff.1 hstop] at hm
    obtain ⟨as, hm'⟩ := exists_moves_stop e.heard
    rw [hstop]
    exact ⟨_, .cons hm (.single hm')⟩
  · -- the engine goes on as if it had not looked for a request
    have hs : e.debugger.stopRequested = false :=
      Bool.eq_false_iff.2 fun h => hstop (plan_eq_stop_iff.2 h)
    have hcheck := moves_check hs
    have hheard := heard_eq_self hs
    -- plans that end the run
    have hend : ∀ {r}, ending? e = some r →
        ∃ μs, Course ⟨.top, e⟩ μs (.ofRound (.ended r)) := by
      intro r hr
      obtain ⟨as, hm⟩ := exists_moves_finish hr
      exact ⟨_, .cons hcheck (.single hm)⟩
    cases hp : e.plan with
    | stop => exact absurd hp hstop
    | idle => exact hend (by rw [ending?, hheard, hp])
    | exhausted => exact hend (by rw [ending?, hheard, hp])
    | finish => exact hend (by rw [ending?, hheard, hp])
    | pause reason =>
      have harrested : e.arrested =
          { e.setDebugger { e.debugger with breakNext := false } with resumeAt := none } := by
        rw [Engine.arrested, takeStop_eq_self hs]
      obtain ⟨μs, hc⟩ := exists_course_pause e.arrested answers reason
      rw [harrested] at hc ⊢
      exact ⟨_, .cons hcheck (.cons (.pause (by rw [hheard, hp])) hc)⟩
    | line l =>
      have hcounted : e.counted = { e with
          machine := { e.machine with used := e.machine.used + 1 }, resumeAt := none } := by
        rw [Engine.counted, hheard]
      obtain ⟨as, hm⟩ := exists_moves_run { e with resumeAt := none } l
      rw [Engine.runLine_eq, ofRound_conclude _ (.block answers)] at hm
      rw [hcounted]
      exact ⟨_, .cons hcheck (.cons (.line (by rw [hheard, hp])) (.single hm))⟩

/-- A line after which the engine goes on leaves it waiting and running as before. -/
lemma of_conclude_again {w w' : Waiting} {i : Nat} {x : Except ExecError Directive} {e' : Engine}
    (h : Engine.conclude w i x e = .again w' e') : w' = w ∧ e'.running = e.running := by
  unfold Engine.conclude at h
  split at h
  · cases h
    exact ⟨rfl, rfl⟩
  · cases h
    exact ⟨rfl, rfl⟩
  · cases h
  · cases h
  · split at h
    · cases h
    · cases h
      exact ⟨rfl, rfl⟩

lemma block_of_again {w : Waiting} {e' : Engine} (h : e.round (.block answers) = .again w e') :
    ∃ left, w = .block left := by
  rcases Engine.plan_of_again h with ⟨l, -, hc⟩ | ⟨reason, -, hpause⟩
  · exact ⟨answers, (of_conclude_again hc).1⟩
  · rcases hd : (e.arrested.paused reason).debugger.await answers with ⟨s, left, d⟩
    rw [Engine.pause_block hd] at hpause
    cases s with
    | stop => cases hpause
    | step =>
      cases hpause
      exact ⟨left, rfl⟩
    | resume =>
      cases hpause
      exact ⟨left, rfl⟩

lemma exists_course_go (w : Waiting) (e : Engine) (hw : w = .block answers) :
    ∃ μs, Course ⟨.top, e⟩ μs ⟨.ended (e.go w).1, (e.go w).2⟩ := by
  induction w, e using Engine.go_induction generalizing answers with
  | step w e ih =>
    subst hw
    obtain ⟨μs, hc⟩ := exists_course_round e answers
    rw [Engine.go_eq]
    cases hr : e.round (.block answers) with
    | ended r =>
      rw [hr] at hc
      exact ⟨μs, hc⟩
    | again w' e' =>
      rw [hr] at hc
      obtain ⟨left, hw'⟩ := block_of_again hr
      obtain ⟨μs', hc'⟩ := ih w' e' hr hw'
      exact ⟨_, hc.append hc'⟩

/-- **A blocking run is a course of moves.** -/
theorem exists_course_drive (h : e.settings.suspend = .block) (answers : List Action) :
    ∃ μs, Course (begun e) μs ⟨.ended (e.drive answers).1, (e.drive answers).2⟩ := by
  have hwaiting : e.waiting answers = .block answers := by rw [Engine.waiting, h]
  obtain ⟨as, has⟩ : Acted ({ e.clearRun with running := true } : Engine).debugger
      e.start.debugger := .emit _ _
  have hm := @Moves.start { e.clearRun with running := true } as
  rw [← has] at hm
  obtain ⟨μs, hc⟩ := exists_course_go (e.waiting answers) e.start hwaiting
  rw [Engine.drive_eq]
  exact ⟨_, .cons hm hc⟩

end Interleaving

end Courseware
