import Courseware.Proofs.Engine.Rounds
import Courseware.Proofs.Machine.Recording

/-!
What a run records. Whatever an engine does, the record only grows, and the changes of variables
that it tells lead from the variables before to the variables after.
-/

namespace Courseware.Engine

open Exec Entry Event

variable {e e' e'' : Engine}

/-- From `e` to `e'` something was recorded that tells every change of a variable. -/
def Recorded (e e' : Engine) : Prop := ∃ es, Records e.machine e'.machine es

namespace Recorded

/-- Nothing is recorded where neither the record nor a variable is touched. -/
lemma none (hlog : e'.machine.log = e.machine.log) (hvars : e'.machine.vars = e.machine.vars) :
    Recorded e e' :=
  ⟨[], .none hlog hvars⟩

lemma refl (e : Engine) : Recorded e e := none rfl rfl

lemma trans (h : Recorded e e') (h' : Recorded e' e'') : Recorded e e'' := by
  obtain ⟨es, hr⟩ := h
  obtain ⟨fs, hr'⟩ := h'
  exact ⟨es ++ fs, hr.trans hr'⟩

lemma isPrefix (h : Recorded e e') : e.machine.log.toList <+: e'.machine.log.toList := by
  obtain ⟨es, hr⟩ := h
  exact hr.isPrefix

/-- An event that tells of no variable. -/
lemma emit (h : Recorded e e') {ev : Event} (hev : ev.change? = .none) :
    Recorded e (e'.emit ev) :=
  h.trans ⟨_, .emit e'.machine hev⟩

end Recorded

lemma recorded_execute (e : Engine) (t : Text) : Recorded e (e.execute t).2 := by
  obtain ⟨es, hr, -⟩ := (composed_execute _ t).leaves e.environment e.machine
  have hsettled : Recorded { e with machine := final (e.effect t) } (e.execute t).2 := by
    rw [execute_snd]
    exact .none rfl rfl
  exact .trans ⟨es, hr⟩ hsettled

/-- The place in the source text that a failure at `i` is reported for. -/
def sourceLine (e : Engine) (i : Nat) : Nat :=
  match e.program.line? i with
  | some line => line.sourceLine
  | none => i + 1

lemma records_start (e : Engine) :
    ∃ receivers, Records e.machine e.start.machine [.event .programStarted receivers] := by
  have hcleared : Records e.machine e.clearRun.machine [] := .none rfl rfl
  exact ⟨_, hcleared.trans (.emit e.clearRun.machine rfl)⟩

lemma records_report (e : Engine) (error : ExecError) :
    ∃ receivers, Records e.machine (e.report error).machine
      [.event (.lineError e.index (e.sourceLine e.index) error.message error.isFatal) receivers] :=
  ⟨_, .emit e.machine rfl⟩

lemma records_halt (e : Engine) (error : ExecError) :
    ∃ receivers, Records e.machine (e.halt error).2.machine
      [.event (.programFinished false) receivers] :=
  ⟨_, .emit e.machine rfl⟩

lemma records_complete (e : Engine) :
    ∃ receivers, Records e.machine e.complete.2.machine
      [.event (.programFinished true) receivers] :=
  ⟨_, .emit e.machine rfl⟩

lemma recorded_report (e : Engine) (error : ExecError) : Recorded e (e.report error) := by
  obtain ⟨receivers, hr⟩ := e.records_report error
  exact ⟨_, hr⟩

lemma recorded_halt (e : Engine) (error : ExecError) : Recorded e (e.halt error).2 := by
  obtain ⟨receivers, hr⟩ := e.records_halt error
  exact ⟨_, hr⟩

lemma recorded_complete (e : Engine) : Recorded e e.complete.2 := by
  obtain ⟨receivers, hr⟩ := e.records_complete
  exact ⟨_, hr⟩

lemma recorded_finishStopped (e : Engine) : Recorded e e.finishStopped.2 := by
  have hended : Recorded e ({ e with running := false }.setDebugger e.debugger.endPause) :=
    .none rfl rfl
  exact hended.emit rfl

lemma recorded_conclude (w : Waiting) (i : Nat) (x : Except ExecError Directive) (e : Engine) :
    Recorded e (conclude w i x e).engine := by
  have hexecuted : Recorded e (e.emit (.lineExecuted i)) := (Recorded.refl e).emit rfl
  have hmoved : ∀ j, Recorded e { e with index := j } := fun _ => .none rfl rfl
  cases x with
  | ok d =>
    cases d with
    | next => exact (hmoved (i + 1)).emit rfl
    | jump j => exact (hmoved j).emit rfl
    | halt => exact hexecuted.trans (recorded_complete _)
    | exit => exact hexecuted.trans (recorded_complete _)
  | error error =>
    have hreport := recorded_report e error
    by_cases hfatal : error.isFatal = true
    · rw [conclude_of_fatal hfatal]
      exact hreport.trans (recorded_halt _ error)
    · rw [conclude_of_not_fatal hfatal]
      have hfailed : Recorded e { e.report error with
          errors := (e.report error).errors + 1, index := i + 1 } :=
        hreport.trans (.none rfl rfl)
      exact hfailed.emit rfl

lemma recorded_paused (e : Engine) (reason : PauseReason) : Recorded e (e.paused reason) := by
  have hpaused : Recorded e (e.setDebugger (e.debugger.beginPause e.index)) := .none rfl rfl
  cases reason with
  | step => exact hpaused
  | breakpoint => exact hpaused.emit rfl

lemma recorded_pause (w : Waiting) (reason : PauseReason) (e : Engine) :
    Recorded e (e.pause w reason).engine := by
  have hpaused := e.recorded_paused reason
  cases w with
  | yield =>
    rw [pause_yield]
    exact hpaused
  | block answers =>
    rcases hd : (e.paused reason).debugger.await answers with ⟨signal, left, d⟩
    rw [pause_block hd]
    refine hpaused.trans ?_
    cases signal with
    | stop =>
      have hstopped : Recorded (e.paused reason)
          ((e.paused reason).setDebugger d.takeStop.2) := .none rfl rfl
      exact hstopped.trans (recorded_finishStopped _)
    | step => exact .none rfl rfl
    | resume => exact .none rfl rfl

lemma recorded_round (w : Waiting) (e : Engine) : Recorded e (e.round w).engine := by
  have hheard : Recorded e e.heard := .none rfl rfl
  rw [round_eq]
  cases e.plan with
  | stop => exact hheard.trans (recorded_finishStopped _)
  | idle => exact hheard
  | exhausted => exact hheard.trans ((recorded_report _ _).trans (recorded_halt _ _))
  | finish => exact hheard.trans (recorded_complete _)
  | pause reason =>
    have harrested : Recorded e e.arrested := .none rfl rfl
    exact harrested.trans (recorded_pause w reason e.arrested)
  | line line =>
    have hcounted : Recorded e e.counted := .none rfl rfl
    exact (hcounted.trans (recorded_execute _ _)).trans (recorded_conclude _ _ _ _)

/-- **A run records every change of a variable.** -/
theorem recorded_go (w : Waiting) (e : Engine) : Recorded e (e.go w).2 := by
  induction w, e using go_induction with
  | step w e ih =>
    have hround := recorded_round w e
    rw [go_eq]
    cases hr : e.round w with
    | ended r =>
      rw [hr] at hround
      exact hround
    | again w' e' =>
      rw [hr] at hround
      exact hround.trans (ih w' e' hr)

lemma recorded_start (e : Engine) : Recorded e e.start := by
  obtain ⟨receivers, hr⟩ := e.records_start
  exact ⟨_, hr⟩

end Courseware.Engine
