import Courseware.Proofs.Command.Confinement
import Courseware.Proofs.Engine.Sessions

/-!
An engine never gets out of its program. Whatever a host does with it, the place of the next
line, the places to return to, the loops and the data that is read stay within the program.
-/

namespace Courseware.Engine

open Exec

variable {e e' s : Engine} {w w' : Waiting}

/-- The engine is within its program. -/
structure Within (e : Engine) : Prop where
  placed : e.program.Placed
  index_le : e.index ≤ e.program.size
  control : e.machine.control.Within e.program

namespace Within

/-- What is not remembered of places may change. -/
lemma of_same (h : e.Within) (hp : e'.program = e.program) (hi : e'.index = e.index)
    (hc : e'.machine.control = e.machine.control) : e'.Within where
  placed := by rw [hp]; exact h.placed
  index_le := by rw [hp, hi]; exact h.index_le
  control := by rw [hp, hc]; exact h.control

lemma move (h : e.Within) {i : Nat} (hi : i ≤ e.program.size) : { e with index := i }.Within where
  placed := h.placed
  index_le := hi
  control := h.control

lemma setDebugger (h : e.Within) (d : Debugger) : (e.setDebugger d).Within :=
  h.of_same rfl rfl rfl

lemma emit (h : e.Within) (ev : Event) : (e.emit ev).Within := h.of_same rfl rfl rfl

lemma report (h : e.Within) (error : ExecError) : (e.report error).Within := h.emit _

lemma complete (h : e.Within) : e.complete.2.Within := h.of_same rfl rfl rfl

lemma halt (h : e.Within) (error : ExecError) : (e.halt error).2.Within := h.of_same rfl rfl rfl

lemma finishStopped (h : e.Within) : e.finishStopped.2.Within := h.of_same rfl rfl rfl

/-- Where a run begins nothing is remembered. -/
lemma clearRun (hp : e.program.Placed) : e.clearRun.Within where
  placed := hp
  index_le := Nat.zero_le _
  control :=
    { returns := fun _ h => by cases h
      loops := fun _ h => by cases h
      distinct := List.nodup_nil
      dataRead_le := Nat.zero_le _ }

lemma start (h : e.Within) : e.start.Within := (clearRun h.placed).of_same rfl rfl rfl

lemma reset (hp : e.program.Placed) : e.reset.Within := by
  have h := (clearRun hp).control
  exact ⟨hp, Nat.zero_le _, ⟨h.returns, h.loops, h.distinct, h.dataRead_le⟩⟩

end Within

lemma within_of_load {source : Text} (h : e.load source = .ok e') : e'.Within := by
  unfold load at h
  cases hp : Program.load source with
  | error error =>
    rw [hp] at h
    cases h
  | ok p =>
    rw [hp] at h
    cases h
    exact Within.reset (e := { e with program := p }) (Program.placed_of_load hp)

/-! ### Rounds -/

lemma lt_of_line {p : Program} {i : Nat} {line : Line} (h : p.line? i = some line) : i < p.size :=
  (List.getElem?_eq_some_iff.1 h).1

lemma Within.counted (h : e.Within) : e.counted.Within := h.of_same rfl rfl rfl

/-- A line leaves control within the program, and says to go on there. -/
lemma Within.execute (h : e.Within) (hi : e.index < e.program.size) (t : Text) :
    (e.execute t).2.Within ∧ ∀ d, (e.execute t).1 = .ok d → d.Within e.program := by
  have hsettled := confined_execute h.placed e.settings.maxCallDepth t e.environment e.machine
    rfl hi h.control
  constructor
  · rw [execute_snd]
    have hc := hsettled.1
    exact
      { placed := h.placed
        index_le := h.index_le
        control := ⟨hc.returns, hc.loops, hc.distinct, hc.dataRead_le⟩ }
  · intro d hd
    cases hr : e.effect t with
    | ok d' m =>
      rw [execute_of_ok hr] at hd
      cases hd
      exact hsettled.2 d m hr
    | error error m =>
      rw [execute_of_error hr] at hd
      cases hd

lemma Within.conclude (h : e.Within) {i : Nat} (hi : i < e.program.size)
    {x : Except ExecError Directive} (hx : ∀ d, x = .ok d → d.Within e.program) (w : Waiting) :
    (conclude w i x e).engine.Within := by
  cases x with
  | ok d =>
    have hd := hx d rfl
    cases d with
    | next => exact (h.move hi).emit _
    | jump j => exact (h.move hd).emit _
    | halt => exact (h.emit _).complete
    | exit => exact (h.emit _).complete
  | error error =>
    by_cases hfatal : error.isFatal = true
    · rw [conclude_of_fatal hfatal]
      exact (h.report error).halt error
    · rw [conclude_of_not_fatal hfatal]
      have hmoved : { e.report error with
          errors := (e.report error).errors + 1, index := i + 1 }.Within :=
        ((h.report error).move (i := i + 1) hi).of_same rfl rfl rfl
      exact hmoved.emit _

lemma Within.pause (h : e.Within) (w : Waiting) (reason : PauseReason) :
    (e.pause w reason).engine.Within := by
  have hpaused : (e.paused reason).Within := by
    cases reason with
    | step => exact h.of_same rfl rfl rfl
    | breakpoint => exact h.of_same rfl rfl rfl
  cases w with
  | yield =>
    rw [pause_yield]
    exact hpaused
  | block answers =>
    rcases hd : (e.paused reason).debugger.await answers with ⟨signal, left, d⟩
    rw [pause_block hd]
    cases signal with
    | stop => exact (hpaused.setDebugger _).finishStopped
    | step => exact hpaused.of_same rfl rfl rfl
    | resume => exact hpaused.of_same rfl rfl rfl

/-- **A round does not lead out of the program.** -/
theorem Within.round (h : e.Within) (w : Waiting) : (e.round w).engine.Within := by
  have hheard : e.heard.Within := h.setDebugger _
  rw [round_eq]
  cases hp : e.plan with
  | stop => exact hheard.finishStopped
  | idle => exact hheard
  | exhausted => exact (hheard.report _).halt _
  | finish => exact hheard.complete
  | pause reason =>
    have harrested : e.arrested.Within := h.of_same rfl rfl rfl
    exact harrested.pause w reason
  | line line =>
    -- a line is executed only where there is one
    have hi : e.index < e.program.size := lt_of_line (ready_of_plan_line hp).1.line_eq
    obtain ⟨hexecuted, hd⟩ := h.counted.execute hi line.text
    have hprogram : (e.counted.execute line.text).2.program = e.program := by
      rw [execute_snd]
      rfl
    refine hexecuted.conclude (by rw [hprogram]; exact hi) ?_ w
    rw [hprogram]
    exact hd

lemma Within.of_again (h : e.Within) (hr : e.round w = .again w' e') : e'.Within := by
  have hround := h.round w
  rwa [hr] at hround

lemma Within.reaches (h : e.Within) (hr : Reaches w e w' e') : e'.Within := by
  induction hr with
  | here => exact h
  | round hround _ ih => exact ih (h.of_again hround)

/-- **A run does not lead out of the program.** -/
theorem Within.go (h : e.Within) (w : Waiting) : (e.go w).2.Within := by
  induction w, e using go_induction with
  | step w e ih =>
    have hround := h.round w
    rw [go_eq]
    cases hr : e.round w with
    | ended r =>
      rw [hr] at hround
      exact hround
    | again w' e' =>
      rw [hr] at hround
      exact ih w' e' hr hround

/-! ### Sessions -/

lemma Within.begins (h : e.Within) {a : Act} (hb : e.begins a = some (w, s)) : s.Within := by
  cases a with
  | drive answers =>
    cases hb
    exact h.start
  | step =>
    cases hb
    have hstepped : ∀ {t : Engine}, t.Within → t.stepped.Within := fun ht =>
      ht.of_same rfl rfl rfl
    split
    · exact hstepped h
    · exact hstepped h.start
  | resume =>
    rw [begins_resume] at hb
    split at hb
    · cases hb
      unfold resumed
      split
      · exact h.of_same rfl rfl rfl
      · exact h
    · cases hb
  | _ => cases hb

lemma Within.stop (h : e.Within) : e.stop.2.Within := by
  unfold Engine.stop
  dsimp only
  split
  · exact ((h.setDebugger _).setDebugger _).finishStopped
  · exact h.setDebugger _

/-- **No act leads out of the program**, which may be another one afterwards. -/
theorem Within.act (h : e.Within) (a : Act) : (e.act a).Within := by
  cases hb : e.begins a with
  | some b =>
    rw [act_of_begins hb]
    exact (h.begins hb).go _
  | none =>
    cases a with
    | drive answers => cases hb
    | step => cases hb
    | resume =>
      rw [act_resume_of_none hb]
      exact h
    | stop => exact h.stop
    | reset => exact Within.reset h.placed
    | load source =>
      cases hload : e.load source with
      | ok e' =>
        rw [act_load_of_ok hload]
        exact within_of_load hload
      | error error =>
        rw [act_load_of_error hload]
        exact h
    | setVariable name v => exact h.of_same rfl rfl rfl
    | perform a => exact h.setDebugger _
    | subscribe c react => exact h.of_same rfl rfl rfl
    | unsubscribe id => exact h.of_same rfl rfl rfl
    | setInput s => exact h.of_same rfl rfl rfl
    | register subsystem c => exact h.of_same rfl rfl rfl

lemma Within.after (h : e.Within) (acts : List Act) : (e.after acts).Within := by
  induction acts generalizing e with
  | nil => exact h
  | cons a acts ih => exact ih (h.act a)

lemma Within.arises (h : e.Within) (hs : e.Arises s) : s.Within := by
  cases hs with
  | after acts => exact h.after acts
  | during acts hb hr => exact ((h.after acts).begins hb).reaches hr

/-- **A program is never left.** Whatever a host does with a loaded program, at every time the
place of the next line, the places to return to, the loops and the data that is read are within
the program. The same holds before and after every command that is executed, inside of others or
not, and where the command says to jump to is within the program. -/
theorem within_of_arises {e₀ : Engine} {source : Text} (hload : e₀.load source = .ok e)
    (hs : e.Arises s) :
    s.index ≤ s.program.size ∧ s.machine.control.Within s.program ∧
      ∀ line x n, s.plan = .line line →
        Task.Holds s.counted.environment (.line s.settings.maxCallDepth line.text)
          s.counted.machine x n →
        n.control.Within s.program ∧
          (final (x.run s.counted.environment n)).control.Within s.program ∧
          ∀ i n', x.run s.counted.environment n = .ok (.jump i) n' → i ≤ s.program.size := by
  have h := (within_of_load hload).arises hs
  refine ⟨h.index_le, h.control, fun line x n hp hx => ?_⟩
  have hi : s.index < s.program.size := lt_of_line (ready_of_plan_line hp).1.line_eq
  obtain ⟨hn, hfinal, hd⟩ := Task.settled_of_holds h.placed rfl hi h.counted.control hx
  exact ⟨hn, hfinal, fun i n' hr => hd (.jump i) n' hr⟩

lemma line_of_decide {q : Plan} {t : Text} (hq : (match q with
    | .line line => decide (line.text = t)
    | _ => false) = true) : ∃ line, q = .line line ∧ line.text = t := by
  split at hq
  · next line => exact ⟨line, rfl, of_decide_eq_true hq⟩
  · cases hq

lemma jump_of_decide {r : EStateM.Result ExecError Machine Directive} {j : Nat} (hr : (match r with
    | .ok (.jump i) _ => decide (i = j)
    | _ => false) = true) : ∃ n', r = .ok (.jump j) n' := by
  split at hr
  · next i n' =>
    rw [of_decide_eq_true hr]
    exact ⟨n', rfl⟩
  · cases hr

/-- A conditional jump out of a subroutine that was called in a loop. -/
theorem within_of_arises_jump :
    ∃ (e s : Engine) (line : Line) (x : Task) (n n' : Machine),
      (new default {}).load
        "10 FOR I = 1 TO 2\n20 GOSUB 40\n30 END\n40 IF 1 THEN 30".toList = .ok e ∧
      s = e.after [.step, .step] ∧ s.machine.returns = [2] ∧
      s.machine.loops.map (·.body) = [1] ∧ s.plan = .line line ∧
      Task.Holds s.counted.environment (.line s.settings.maxCallDepth line.text)
        s.counted.machine x n ∧
      x.run s.counted.environment n = .ok (.jump 2) n' ∧
      s.index ≤ s.program.size ∧ s.machine.control.Within s.program ∧
      n.control.Within s.program ∧
      (final (x.run s.counted.environment n)).control.Within s.program ∧
      2 ≤ s.program.size := by
  obtain ⟨e, hload, hreturns, hloops, ⟨line, hp, ht⟩, n', hr⟩ : ∃ e,
      (new default {}).load
        "10 FOR I = 1 TO 2\n20 GOSUB 40\n30 END\n40 IF 1 THEN 30".toList = .ok e ∧
      (e.after [.step, .step]).machine.returns = [2] ∧
      (e.after [.step, .step]).machine.loops.map (·.body) = [1] ∧
      (∃ line, (e.after [.step, .step]).plan = .line line ∧
        line.text = "IF 1 THEN 30".toList) ∧
      ∃ n', (Command.read (e.after [.step, .step]).program "IF 1 THEN 30".toList).run
        (entering (e.after [.step, .step]).settings.maxCallDepth)
        (e.after [.step, .step]).counted.environment
        (e.after [.step, .step]).counted.machine = .ok (.jump 2) n' :=
    ⟨_, rfl, by decide +kernel, by decide +kernel, line_of_decide (by decide +kernel),
      jump_of_decide (by decide +kernel)⟩
  obtain ⟨s, hs⟩ : ∃ s, s = e.after [.step, .step] := ⟨_, rfl⟩
  have harises : e.Arises s := hs ▸ .after [.step, .step]
  rw [← hs] at hreturns hloops hp hr
  rw [← ht] at hr
  have hx : Task.Holds s.counted.environment (.line s.settings.maxCallDepth line.text)
      s.counted.machine (.command s.settings.maxCallDepth (Command.read s.program line.text))
      s.counted.machine := .part .whole .read
  obtain ⟨hi, hc, hinside⟩ := within_of_arises hload harises
  obtain ⟨hn, hfinal, hjumps⟩ := hinside line _ _ hp hx
  exact ⟨e, s, line, _, _, n', hload, hs, hreturns, hloops, hp, hx, hr, hi, hc, hn, hfinal,
    hjumps 2 n' hr⟩

end Courseware.Engine
