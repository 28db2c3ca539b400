import Courseware.Proofs.Command.Depth
import Courseware.Proofs.Engine.Sessions
import Courseware.Proofs.Machine.Past

/-!
A reset makes the engine forget what was done with it.

Whatever a host has done, an engine that is reset, or that gets another program, is from then on
the same as a new one to which the host hands over the program, the breakpoints, the step mode,
the subscribers and itself. Only what has been recorded stays, in front of all that is recorded
later. This holds for every source of random numbers: the new engine has the same source, and a
generator that is started without a seed is in both the next one of that source.
-/

namespace Courseware.Engine

open Exec

variable {e e' s : Engine} {w w' : Waiting}

/-! ### What was recorded before -/

/-- The engine with an earlier record in front of its own. -/
def preceded (past : Array Entry) (e : Engine) : Engine :=
  { e with machine := e.machine.preceded past }

/-- What a run comes to, with an earlier record in front. -/
def precede (past : Array Entry) (r : Outcome × Engine) : Outcome × Engine :=
  (r.1, r.2.preceded past)

/-- A round with an earlier record in front. -/
def Round.precede (past : Array Entry) : Round → Round
  | .ended r => .ended (Engine.precede past r)
  | .again w e => .again w (e.preceded past)

section Preceded

variable (past : Array Entry)

lemma emit_preceded (e : Engine) (ev : Event) :
    (e.preceded past).emit ev = (e.emit ev).preceded past :=
  congrArg (fun m => { e with machine := m }) (e.machine.emit_preceded past ev)

lemma report_preceded (e : Engine) (error : ExecError) :
    (e.preceded past).report error = (e.report error).preceded past :=
  e.emit_preceded past _

lemma complete_preceded (e : Engine) : (e.preceded past).complete = precede past e.complete :=
  congrArg (Prod.mk _) (emit_preceded past { e with running := false } _)

lemma halt_preceded (e : Engine) (error : ExecError) :
    (e.preceded past).halt error = precede past (e.halt error) :=
  congrArg (Prod.mk _) (emit_preceded past { e with running := false } _)

lemma finishStopped_preceded (e : Engine) :
    (e.preceded past).finishStopped = precede past e.finishStopped := by
  have h := emit_preceded past ({ e with running := false }.setDebugger e.debugger.endPause)
    (.programFinished false)
  exact congrArg (Prod.mk Outcome.stopped) h

lemma execute_preceded (e : Engine) (t : Text) :
    (e.preceded past).execute t = ((e.execute t).1, (e.execute t).2.preceded past) := by
  have h : (e.preceded past).effect t = Exec.precede past (e.effect t) :=
    (composed_execute _ t).precede past e.environment e.machine
  cases hr : e.effect t with
  | ok d m =>
    rw [hr] at h
    rw [execute_of_ok hr, execute_of_ok (m := m.preceded past) h]
    rfl
  | error error m =>
    rw [hr] at h
    rw [execute_of_error hr, execute_of_error (m := m.preceded past) h]
    rfl

lemma conclude_preceded (w : Waiting) (i : Nat) (x : Except ExecError Directive) (e : Engine) :
    conclude w i x (e.preceded past) = (conclude w i x e).precede past := by
  cases x with
  | ok d =>
    cases d with
    | next => exact congrArg (Round.again w) (emit_preceded past { e with index := i + 1 } _)
    | jump j => exact congrArg (Round.again w) (emit_preceded past { e with index := j } _)
    | halt =>
      refine congrArg Round.ended ?_
      rw [emit_preceded]
      exact complete_preceded past _
    | exit =>
      refine congrArg Round.ended ?_
      rw [emit_preceded]
      exact complete_preceded past _
  | error error =>
    by_cases hfatal : error.isFatal = true
    · rw [conclude_of_fatal hfatal, conclude_of_fatal hfatal, report_preceded]
      exact congrArg Round.ended (halt_preceded past _ error)
    · rw [conclude_of_not_fatal hfatal, conclude_of_not_fatal hfatal, report_preceded]
      exact congrArg (Round.again w) (emit_preceded past
        { e.report error with errors := (e.report error).errors + 1, index := i + 1 } _)

lemma paused_preceded (e : Engine) (reason : PauseReason) :
    (e.preceded past).paused reason = (e.paused reason).preceded past := by
  cases reason with
  | step => rfl
  | breakpoint => exact emit_preceded past (e.setDebugger (e.debugger.beginPause e.index)) _

lemma pause_preceded (w : Waiting) (reason : PauseReason) (e : Engine) :
    (e.preceded past).pause w reason = (e.pause w reason).precede past := by
  cases w with
  | yield =>
    rw [pause_yield, pause_yield, paused_preceded]
    rfl
  | block answers =>
    -- the answers are given to the debugger, which the record is no part of
    rcases hd : (e.paused reason).debugger.await answers with ⟨signal, left, d⟩
    have hd' : ((e.preceded past).paused reason).debugger.await answers = (signal, left, d) := by
      rw [paused_preceded]
      exact hd
    rw [pause_block hd, pause_block hd', paused_preceded]
    cases signal with
    | stop =>
      have h := finishStopped_preceded past ((e.paused reason).setDebugger d.takeStop.2)
      exact congrArg Round.ended h
    | step => rfl
    | resume => rfl

/-- **A round makes no use of what was recorded before.** -/
theorem round_preceded (w : Waiting) (e : Engine) :
    (e.preceded past).round w = (e.round w).precede past := by
  have hplan : (e.preceded past).plan = e.plan := rfl
  rw [round_eq, round_eq, hplan]
  cases e.plan with
  | stop => exact congrArg Round.ended (finishStopped_preceded past e.heard)
  | idle => rfl
  | exhausted =>
    refine congrArg Round.ended ?_
    exact (congrArg (halt · _) (report_preceded past e.heard _)).trans (halt_preceded past _ _)
  | finish => exact congrArg Round.ended (complete_preceded past e.heard)
  | pause reason => exact pause_preceded past w reason e.arrested
  | line line =>
    -- a command cannot read the record
    have hline : (e.preceded past).counted.execute line.text =
        ((e.counted.execute line.text).1, (e.counted.execute line.text).2.preceded past) :=
      execute_preceded past e.counted line.text
    dsimp only
    rw [hline]
    exact conclude_preceded past w e.index _ _

/-- **A run makes no use of what was recorded before.** -/
theorem go_preceded (w : Waiting) (e : Engine) :
    (e.preceded past).go w = precede past (e.go w) := by
  induction w, e using go_induction with
  | step w e ih =>
    rw [go_eq, go_eq, round_preceded]
    cases hr : e.round w with
    | ended r => rfl
    | again w' e' => exact ih w' e' hr

lemma start_preceded (e : Engine) : (e.preceded past).start = e.start.preceded past :=
  emit_preceded past { e.clearRun with running := true } _

lemma resumed_preceded (e : Engine) : (e.preceded past).resumed = e.resumed.preceded past := by
  have hpaused : (e.preceded past).debugger.pausedAt = e.debugger.pausedAt := rfl
  unfold resumed
  rw [hpaused]
  split <;> rfl

lemma begins_preceded (e : Engine) (a : Act) :
    (e.preceded past).begins a = (e.begins a).map fun b => (b.1, b.2.preceded past) := by
  cases a with
  | drive answers => exact congrArg (fun s => some (e.waiting answers, s)) (start_preceded past e)
  | resume =>
    have hr : (e.preceded past).running = e.running := rfl
    rw [begins_resume, begins_resume, hr, resumed_preceded]
    split <;> rfl
  | step =>
    have hfrom : (if (e.preceded past).running then e.preceded past
        else (e.preceded past).start) = (if e.running then e else e.start).preceded past := by
      rw [start_preceded]
      exact (apply_ite (preceded past) _ _ _).symm
    exact congrArg (fun s => some (Waiting.yield, stepped s)) hfrom
  | _ => rfl

lemma stop_preceded (e : Engine) : (e.preceded past).stop = precede past e.stop := by
  have hended := finishStopped_preceded past
    ((e.setDebugger e.debugger.stop).setDebugger e.debugger.stop.takeStop.2)
  have hidle : (Outcome.idle, (e.setDebugger e.debugger.stop).preceded past) =
      precede past (.idle, e.setDebugger e.debugger.stop) := rfl
  unfold stop
  by_cases h : (e.running && e.debugger.stop.pausedAt.isSome) = true
  · exact (if_pos h).trans (hended.trans (congrArg (precede past) (if_pos h).symm))
  · exact (if_neg h).trans (hidle.trans (congrArg (precede past) (if_neg h).symm))

end Preceded

/-! ### What a host is told -/

/-- What a host is told when it has done something. -/
inductive Reply where
  | outcome (o : Outcome)
  | loaded
  | refused (error : LoadError)
  /-- The number of a subscription. -/
  | number (id : Nat)
  /-- Whether there is a breakpoint now, or was a subscription. -/
  | found (b : Bool)
  | done

/-- What a host is told by an act. -/
def reply (e : Engine) : Act → Reply
  | .drive answers => .outcome (e.drive answers).1
  | .resume => .outcome e.resume.1
  | .step => .outcome e.step.1
  | .stop => .outcome e.stop.1
  | .load source =>
    match e.load source with
    | .ok _ => .loaded
    | .error error => .refused error
  | .perform (.toggle i) => .found ((e.debugger.toggle i).hasBreakpoint i)
  | .subscribe c react => .number (e.subscribe c react).1
  | .unsubscribe id => .found (e.unsubscribe id).1
  | _ => .done

/-- What a host is told by one act after the other. -/
def replies (e : Engine) : List Act → List Reply
  | [] => []
  | a :: acts => e.reply a :: (e.act a).replies acts

lemma reply_of_begins {a : Act} (h : e.begins a = some (w, s)) :
    e.reply a = .outcome (s.go w).1 := by
  cases a with
  | drive answers =>
    cases h
    exact congrArg (fun r => Reply.outcome r.1) (e.drive_eq answers)
  | step =>
    cases h
    rfl
  | resume =>
    change Reply.outcome e.resume.1 = _
    rw [begins_resume] at h
    rw [resume_eq]
    split at h
    · next hr =>
      cases h
      rw [if_pos hr]
    · cases h
  | _ => cases h

/-- There is nothing to resume where there are no rounds. -/
lemma reply_resume_of_none (h : e.begins .resume = none) : e.reply .resume = .outcome .idle := by
  change Reply.outcome e.resume.1 = _
  rw [begins_resume] at h
  rw [resume_eq]
  split at h
  · cases h
  · next hr => rw [if_neg hr]

lemma load_of_ok {source : Text} {p : Program} (h : Program.load source = .ok p) :
    e.load source = .ok { e with program := p }.reset := by
  rw [load, h]
  rfl

lemma load_of_error {source : Text} {error : LoadError} (h : Program.load source = .error error) :
    e.load source = .error error := by
  rw [load, h]
  rfl

/-- **An act makes no use of what was recorded before.** The host is told the same, and the engine
is the same afterwards but for the earlier record. -/
theorem act_preceded (past : Array Entry) (e : Engine) (a : Act) :
    (e.preceded past).reply a = e.reply a ∧
      (e.preceded past).act a = (e.act a).preceded past := by
  have hbegins := begins_preceded past e a
  cases hb : e.begins a with
  | some b =>
    rw [hb] at hbegins
    -- acts that let the program run
    have hgo := go_preceded past b.1 b.2
    rw [act_of_begins hb, act_of_begins hbegins, reply_of_begins hb, reply_of_begins hbegins, hgo]
    exact ⟨rfl, rfl⟩
  | none =>
    rw [hb] at hbegins
    cases a with
    -- acts that do not
    | drive answers => cases hb
    | step => cases hb
    | resume =>
      rw [act_resume_of_none hb, act_resume_of_none hbegins, reply_resume_of_none hb,
        reply_resume_of_none hbegins]
      exact ⟨rfl, rfl⟩
    | stop =>
      have hstop := stop_preceded past e
      have houtcome : (e.preceded past).stop.1 = e.stop.1 := by
        rw [hstop]
        rfl
      exact ⟨congrArg Reply.outcome houtcome, congrArg Prod.snd hstop⟩
    | load source =>
      -- whether a text is a program does not depend on the engine
      cases hload : Program.load source with
      | ok p =>
        have h : e.load source = .ok { e with program := p }.reset := load_of_ok hload
        have h' : (e.preceded past).load source =
            .ok { e.preceded past with program := p }.reset := load_of_ok hload
        rw [act_load_of_ok h, act_load_of_ok h', reply, reply, h, h']
        exact ⟨rfl, rfl⟩
      | error error =>
        have h : e.load source = .error error := load_of_error hload
        have h' : (e.preceded past).load source = .error error := load_of_error hload
        rw [act_load_of_error h, act_load_of_error h', reply, reply, h, h']
        exact ⟨rfl, rfl⟩
    | setVariable name v =>
      exact ⟨rfl, emit_preceded past
        { e with machine := { e.machine with vars := e.machine.vars.set name v } } _⟩
    | perform a => cases a <;> exact ⟨rfl, rfl⟩
    -- beside the run, where nothing is told
    | reset => exact ⟨rfl, rfl⟩
    | subscribe c react => exact ⟨rfl, rfl⟩
    | unsubscribe id => exact ⟨rfl, rfl⟩
    | setInput s => exact ⟨rfl, rfl⟩
    | register subsystem c => exact ⟨rfl, rfl⟩

/-- **A session makes no use of what was recorded before it.** -/
theorem after_preceded (past : Array Entry) (e : Engine) (acts : List Act) :
    (e.preceded past).replies acts = e.replies acts ∧
      (e.preceded past).after acts = (e.after acts).preceded past := by
  induction acts generalizing e with
  | nil => exact ⟨rfl, rfl⟩
  | cons a acts ih =>
    obtain ⟨hreply, hact⟩ := act_preceded past e a
    obtain ⟨hreplies, hafter⟩ := ih (e.act a)
    refine ⟨?_, ?_⟩
    · rw [replies, replies, hreply, hact, hreplies]
    · change ((e.preceded past).act a).after acts = ((e.act a).after acts).preceded past
      rw [hact, hafter]

/-! ### Between acts no procedure is being executed -/

lemma callDepth_conclude (w : Waiting) (i : Nat) (x : Except ExecError Directive) (e : Engine) :
    (conclude w i x e).engine.machine.callDepth = e.machine.callDepth := by
  unfold conclude
  split
  · rfl
  · rfl
  · rfl
  · rfl
  · split <;> rfl

lemma callDepth_pause (w : Waiting) (reason : PauseReason) (e : Engine) :
    (e.pause w reason).engine.machine.callDepth = e.machine.callDepth := by
  have hpaused : (e.paused reason).machine.callDepth = e.machine.callDepth := by
    cases reason <;> rfl
  cases w with
  | yield =>
    rw [pause_yield]
    exact hpaused
  | block answers =>
    rcases hd : (e.paused reason).debugger.await answers with ⟨signal, left, d⟩
    rw [pause_block hd]
    cases signal <;> exact hpaused

lemma callDepth_round (w : Waiting) (e : Engine) :
    (e.round w).engine.machine.callDepth = e.machine.callDepth := by
  rw [round_eq]
  cases e.plan with
  | pause reason => exact callDepth_pause w reason e.arrested
  | line line =>
    refine (callDepth_conclude w e.index _ _).trans ?_
    rw [execute_snd]
    exact (composed_execute _ line.text).callDepth_eq e.counted.environment e.counted.machine
  | _ => rfl

lemma callDepth_go (w : Waiting) (e : Engine) :
    (e.go w).2.machine.callDepth = e.machine.callDepth := by
  induction w, e using go_induction with
  | step w e ih =>
    have hround := callDepth_round w e
    rw [go_eq]
    cases hr : e.round w with
    | ended r =>
      rw [hr] at hround
      exact hround
    | again w' e' =>
      rw [hr] at hround
      exact (ih w' e' hr).trans hround

lemma callDepth_begins {a : Act} (h : e.begins a = some (w, s)) :
    s.machine.callDepth = e.machine.callDepth := by
  cases a with
  | drive answers =>
    cases h
    rfl
  | step =>
    cases h
    split <;> rfl
  | resume =>
    rw [begins_resume] at h
    split at h
    · cases h
      unfold resumed
      split <;> rfl
    · cases h
  | _ => cases h

lemma callDepth_act (e : Engine) (a : Act) :
    (e.act a).machine.callDepth = e.machine.callDepth := by
  cases hb : e.begins a with
  | some b => rw [act_of_begins hb, callDepth_go, callDepth_begins hb]
  | none =>
    cases a with
    | drive answers => cases hb
    | step => cases hb
    | resume => rw [act_resume_of_none hb]
    | load source =>
      cases hload : e.load source with
      | ok e' =>
        obtain ⟨p, -, rfl⟩ := reset_of_load hload
        rw [act_load_of_ok hload]
        rfl
      | error error => rw [act_load_of_error hload]
    | stop =>
      change e.stop.2.machine.callDepth = e.machine.callDepth
      unfold stop
      dsimp only
      split <;> rfl
    | _ => rfl

lemma callDepth_after (e : Engine) (acts : List Act) :
    (e.after acts).machine.callDepth = e.machine.callDepth := by
  induction acts generalizing e with
  | nil => rfl
  | cons a acts ih => exact (ih (e.act a)).trans (e.callDepth_act a)

/-! ### Beginning anew -/

/-- A new engine to which a host hands over a program, and from another engine the breakpoints,
the step mode, the subscribers and itself. Its random numbers come from the source
of the other engine. -/
def heir (s : Settings) (p : Program) (e : Engine) : Engine :=
  { new e.machine.random.source s with
    program := p
    machine := { (new e.machine.random.source s).machine with
      host := e.machine.host
      bus := e.machine.bus
      debugger := { breakpoints := e.debugger.breakpoints, stepMode := e.debugger.stepMode } } }

/-- A reset forgets all that is not handed over, if no procedure is being executed. -/
lemma reset_eq_heir (hdepth : e.machine.callDepth = 0) :
    e.reset = (heir e.settings e.program e).preceded e.machine.log := by
  unfold reset heir preceded Machine.preceded new
  dsimp only [clearRun]
  rw [hdepth]
  rfl

/-- From now on the host cannot tell one engine from the other, but for an earlier record. -/
def Continues (past : Array Entry) (e e' : Engine) : Prop :=
  ∀ acts, e.replies acts = e'.replies acts ∧ e.after acts = (e'.after acts).preceded past

lemma continues_reset (hdepth : e.machine.callDepth = 0) :
    Continues e.machine.log e.reset (heir e.settings e.program e) := by
  intro acts
  rw [reset_eq_heir hdepth]
  exact after_preceded e.machine.log _ acts

/-- **A reset erases history.** Whatever was done with an engine before, after a reset and after
another program has been loaded everything that a host does has the same outcome, is recorded in
the same way and leaves the same state as with a new engine that has the program, the breakpoints,
the step mode, the subscribers and the host. This is so with every source of random numbers, with
a seed and without one. A text that is no program changes nothing. -/
theorem continues_as_new (r : RandomSource) {s : Settings} {history : List Act} {e : Engine}
    (he : e = (new r s).after history) :
    Continues e.machine.log e.reset (heir s e.program e) ∧
      (∀ source p, Program.load source = .ok p →
        ∃ e', e.load source = .ok e' ∧ e.act (.load source) = e' ∧
          e.reply (.load source) = .loaded ∧ Continues e.machine.log e' (heir s p e)) ∧
      ∀ source error, Program.load source = .error error →
        e.load source = .error error ∧ e.act (.load source) = e ∧
          e.reply (.load source) = .refused error := by
  -- no act changes the settings, and every act ends outside of all calls
  have hsettings : e.settings = s := he ▸ settings_after (new r s) history
  have hdepth : e.machine.callDepth = 0 := he ▸ callDepth_after (new r s) history
  subst hsettings
  refine ⟨continues_reset hdepth, fun source p hp => ?_, fun source error herror => ?_⟩
  · have hload : e.load source = .ok { e with program := p }.reset := load_of_ok hp
    refine ⟨_, hload, act_load_of_ok hload, ?_, ?_⟩
    · rw [reply, hload]
    · exact continues_reset (e := { e with program := p }) hdepth
  · have hload : e.load source = .error error := load_of_error herror
    refine ⟨hload, act_load_of_error hload, ?_⟩
    rw [reply, hload]

/-- A program that has started a generator without a seed and entered a subroutine, and is stopped
at a breakpoint there with a random number in a variable. -/
theorem continues_as_new_breakpoint :
    ∃ (s : Settings) (history : List Act) (e : Engine),
      s = { suspend := .yield, seed := some 7 } ∧
      history = [.load "RANDOMIZE\nLET X=RND()\nGOSUB S\nEND\nL:S\nT:*X*\nRETURN".toList,
        .perform (.toggle 5), .subscribe .output fun _ _ => .done, .drive [], .perform .step] ∧
      e = (new (.counting 5) s).after history ∧ e.machine.vars.keys = ["X".toList] ∧
      e.machine.returns = [3] ∧ e.debugger.pausedAt = some 5 ∧
      e.machine.random.drawn = 1 ∧ e.machine.random.source.taken = 1 ∧
      Continues e.machine.log e.reset (heir s e.program e) ∧
      (∃ p e', Program.load "T:two".toList = .ok p ∧ e.load "T:two".toList = .ok e' ∧
        Continues e.machine.log e' (heir s p e)) ∧
      e.act (.load "L:A\nL:a".toList) = e := by
  obtain ⟨s, history, e, hs, hhistory, he⟩ : ∃ s history e,
      s = { suspend := .yield, seed := some 7 } ∧
      history = [.load "RANDOMIZE\nLET X=RND()\nGOSUB S\nEND\nL:S\nT:*X*\nRETURN".toList,
        .perform (.toggle 5), .subscribe .output fun _ _ => .done, .drive [], .perform .step] ∧
      e = (new (.counting 5) s).after history := ⟨_, _, _, rfl, rfl, rfl⟩
  obtain ⟨hreset, hload, hrefuse⟩ := continues_as_new (.counting 5) he
  obtain ⟨e', he', -, -, hnew⟩ := hload "T:two".toList _ rfl
  refine ⟨s, history, e, hs, hhistory, he, ?_, ?_, ?_, ?_, ?_, hreset, ⟨_, e', rfl, he', hnew⟩,
    (hrefuse "L:A\nL:a".toList (.duplicateLabel "A".toList 1 2) rfl).2.1⟩
  all_goals
    subst he hhistory hs
    decide +kernel

end Courseware.Engine
