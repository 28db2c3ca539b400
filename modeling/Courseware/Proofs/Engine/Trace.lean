import Courseware.Proofs.Engine.Recording
import Courseware.Proofs.Engine.Shadowing

/-!
The events of a run that is neither paused nor stopped.

Such a run tells that it starts, then what every line that is executed does, in one block a line,
and then that it is finished. Only a fatal failure leaves a line without the event that it was
executed, and only the last line can fail so.
-/

namespace Courseware

open Exec Entry Event

/-! ### Debuggers that keep calm -/

/-- Nothing in the debugger makes a run pause or stop. -/
structure Debugger.Calm (d : Debugger) : Prop where
  breakpoints : d.breakpoints = []
  stepMode : d.stepMode = false
  breakNext : d.breakNext = false
  unstopped : d.stopRequested = false

/-- No subscriber disturbs a calm debugger: none sets a breakpoint, turns the step mode on, or
asks for a step or a stop. -/
def Bus.Calm (b : Bus) : Prop :=
  ∀ s ∈ b.subscribers, ∀ n ev d, Debugger.Calm d → (Machine.react d (s.react n ev)).Calm

structure Machine.Calm (m : Machine) : Prop where
  bus : m.bus.Calm
  debugger : m.debugger.Calm

lemma Debugger.Calm.reason?_eq {d : Debugger} (h : d.Calm) (i : Nat) : d.reason? i = none := by
  have hbreak : d.hasBreakpoint i = false := by
    unfold hasBreakpoint
    rw [h.breakpoints]
    rfl
  unfold Debugger.reason?
  rw [hbreak, h.stepMode, h.breakNext]
  rfl

lemma Machine.Calm.emit {m : Machine} (h : m.Calm) (ev : Event) : (m.emit ev).Calm where
  bus := by
    intro s hs n ev' d hd
    simp only [Machine.emit, Bus.emit, List.mem_map] at hs
    obtain ⟨s', hs', rfl⟩ := hs
    -- only the count of a subscriber changes
    have hreact := h.bus s' hs' n ev' d hd
    split <;> exact hreact
  debugger := by
    have hreacts : ∀ r ∈ (m.bus.emit ev).1, ∀ d, Debugger.Calm d → (react d r.2).Calm := by
      intro r hr d hd
      simp only [Bus.emit, Bus.receivers, List.mem_map, List.mem_filter] at hr
      obtain ⟨s, ⟨hs, -⟩, rfl⟩ := hr
      exact h.bus s hs s.received ev d hd
    have hfold : ∀ (rs : List (Nat × Reaction)) (d : Debugger),
        (∀ r ∈ rs, ∀ d, Debugger.Calm d → (react d r.2).Calm) → d.Calm →
          (rs.foldl (fun d r => react d r.2) d).Calm := by
      intro rs
      induction rs with
      | nil => exact fun _ _ hd => hd
      | cons r rs ih =>
        intro d hrs hd
        exact ih _ (fun r' hr' => hrs r' (List.mem_cons_of_mem _ hr'))
          (hrs r List.mem_cons_self d hd)
    exact hfold _ _ hreacts h.debugger

lemma Exec.kept_calm (limit : Nat) : Kept limit fun m m' => m.Calm → m'.Calm where
  refl _ h := h
  trans h₁ h₂ h := h₂ (h₁ h)
  control _ _ h := ⟨h.bus, h.debugger⟩
  depth _ _ h := ⟨h.bus, h.debugger⟩
  charge _ _ h := ⟨h.bus, h.debugger⟩
  setVariable m name v h :=
    Machine.Calm.emit (m := { m with vars := m.vars.set name v }) ⟨h.bus, h.debugger⟩ _
  print _ _ h := h.emit _
  host _ _ h := ⟨h.bus, h.debugger⟩
  asked _ _ _ h := ⟨h.bus, h.debugger⟩

/-! ### The form of the events -/

def Event.isError : Event → Bool
  | .lineError .. => true
  | _ => false

/-- The events of the line at `i` of a program that goes on after it. A failure is told with the
place of the line in the source text. -/
inductive Block (p : Program) (i : Nat) : List Event → Prop where
  | executed {line : Line} {evs : List Event} (hl : p.line? i = some line)
      (hevs : ∀ ev ∈ evs, ev.isEffect = true) : Block p i (evs ++ [.lineExecuted i])
  | failed {line : Line} {evs : List Event} {message : String} (hl : p.line? i = some line)
      (hevs : ∀ ev ∈ evs, ev.isEffect = true) :
      Block p i (evs ++ [.lineError i line.sourceLine message false, .lineExecuted i])

/-- `Trace p is r evs` says that `evs` is told, once it has started, by a run that executes the
lines at the places `is` and has the result `r`. -/
inductive Trace (p : Program) : List Nat → Outcome × Engine → List Event → Prop where
  | block {i : Nat} {is : List Nat} {r : Outcome × Engine} {evs rest : List Event}
      (h : Block p i evs) (hs : Trace p is r rest) : Trace p (i :: is) r (evs ++ rest)
  | completed {n : Nat} {e : Engine} : Trace p [] (.completed n, e) [.programFinished true]
  /-- The last line has failed. -/
  | failed {error : ExecError} {e : Engine} {line : Line} {evs : List Event}
      (hl : p.line? e.index = some line) (hevs : ∀ ev ∈ evs, ev.isEffect = true)
      (hf : error.isFatal = true) :
      Trace p [e.index] (.halted error, e)
        (evs ++ [.lineError e.index line.sourceLine error.message true, .programFinished false])
  /-- No command may be executed where the next line would be. -/
  | exhausted {e : Engine} (hu : e.settings.maxCommands ≤ e.machine.used) :
      Trace p [] (.halted (.runaway e.settings.maxCommands), e)
        [.lineError e.index (e.sourceLine e.index)
          (ExecError.runaway e.settings.maxCommands).message true, .programFinished false]

lemma countP_isError {evs : List Event} (h : ∀ ev ∈ evs, ev.isEffect = true) :
    evs.countP Event.isError = 0 := by
  rw [List.countP_eq_zero]
  intro ev hev herror
  have heffect := h ev hev
  cases ev <;> simp_all [isError, isEffect]

namespace Engine

variable {e e' s : Engine} {line : Line} {w w' : Waiting}

/-- What a round tells that executes the lines at `is` after `n` lines have failed. -/
inductive Told (p : Program) (is : List Nat) (n : Nat) : Round → List Event → Prop where
  | again {i : Nat} {w : Waiting} {e : Engine} {evs : List Event} (hi : is = [i])
      (h : Block p i evs) (hn : e.errors = n + evs.countP isError) :
      Told p is n (.again w e) evs
  | ended {r : Outcome × Engine} {evs : List Event} (h : Trace p is r evs)
      (hn : ∀ k, r.1 = .completed k → k = n + evs.countP isError) : Told p is n (.ended r) evs

/-- What a line tells when it has done its work, which told `evs`. -/
lemma told_conclude {evs : List Event} (hl : s.program.line? s.index = some line)
    (hevs : ∀ ev ∈ evs, ev.isEffect = true) (w : Waiting) (x : Except ExecError Directive) :
    ∃ es, Records s.machine (conclude w s.index x s).engine.machine es ∧
      Told s.program [s.index] s.errors (conclude w s.index x s) (evs ++ events es) := by
  have hzero := countP_isError hevs
  have hdone : Block s.program s.index (evs ++ [.lineExecuted s.index]) := .executed hl hevs
  -- the line is done, and the engine goes on elsewhere
  have hmoved : ∀ j, ∃ es,
      Records s.machine ({ s with index := j }.emit (.lineExecuted s.index)).machine es ∧
        Told s.program [s.index] s.errors
          (.again w ({ s with index := j }.emit (.lineExecuted s.index))) (evs ++ events es) := by
    intro j
    refine ⟨_, Records.emit s.machine rfl, .again rfl hdone ?_⟩
    rw [List.countP_append, hzero]
    rfl
  -- the line is done, and it was the last
  have hcompleted : ∃ es,
      Records s.machine (s.emit (.lineExecuted s.index)).complete.2.machine es ∧
        Told s.program [s.index] s.errors (.ended (s.emit (.lineExecuted s.index)).complete)
          (evs ++ events es) := by
    have hr := Records.emit (e := .lineExecuted s.index) s.machine rfl
    obtain ⟨receivers, hr'⟩ := records_complete (s.emit (.lineExecuted s.index))
    refine ⟨_, hr.trans hr', .ended ?_ ?_⟩
    · rw [events_append, ← List.append_assoc]
      exact .block hdone .completed
    · intro k hk
      cases hk
      rw [List.countP_append, hzero]
      rfl
  cases x with
  | ok d =>
    cases d with
    | next => exact hmoved (s.index + 1)
    | jump j => exact hmoved j
    | halt => exact hcompleted
    | exit => exact hcompleted
  | error error =>
    obtain ⟨receivers, hr⟩ := records_report s error
    -- an error tells the line of the source text
    have hsource : s.sourceLine s.index = line.sourceLine := by
      unfold sourceLine
      rw [hl]
    rw [hsource] at hr
    by_cases hfatal : error.isFatal = true
    · -- nothing is told about the line after a fatal error
      rw [conclude_of_fatal hfatal]
      obtain ⟨receivers', hr'⟩ := records_halt (s.report error) error
      refine ⟨_, hr.trans hr', .ended ?_ ?_⟩
      · rw [hfatal]
        exact .failed (e := ((s.report error).halt error).2) hl hevs hfatal
      · intro k hk
        cases hk
    · rw [conclude_of_not_fatal hfatal]
      have hr' := Records.emit (e := .lineExecuted s.index) (s.report error).machine rfl
      refine ⟨_, hr.trans hr', .again rfl ?_ ?_⟩
      · rw [Bool.not_eq_true] at hfatal
        rw [hfatal]
        exact .failed hl hevs
      · rw [List.countP_append, hzero]
        rfl

/-- A calm engine goes its course. -/
lemma plan_of_calm (h : e.debugger.Calm) : e.plan = e.course := by
  rcases plan_or_pause h.unstopped with hp | ⟨reason, -, hreason⟩
  · exact hp
  · rw [h.reason?_eq] at hreason
    cases hreason

/-- A calm engine goes on only after a line. -/
lemma line_of_again (h : e.debugger.Calm) (hr : e.round w = .again w' e') :
    ∃ line : Line, conclude w e.index (e.counted.execute line.text).1
      (e.counted.execute line.text).2 = .again w' e' := by
  rcases plan_of_again hr with ⟨line, -, hc⟩ | ⟨reason, hp, -⟩
  · exact ⟨line, hc⟩
  · rw [plan_of_calm h] at hp
    unfold course at hp
    split at hp
    · cases hp
    · split at hp
      · cases hp
      · split at hp <;> cases hp

/-- After a line the engine runs on, and is calm if the line has left it so. -/
lemma on_of_conclude {i : Nat} {x : Except ExecError Directive}
    (h : conclude w i x e = .again w' e') :
    e'.running = e.running ∧ (e.machine.Calm → e'.machine.Calm) := by
  cases x with
  | ok d =>
    cases d with
    | next =>
      cases h
      exact ⟨rfl, fun hcalm => hcalm.emit _⟩
    | jump j =>
      cases h
      exact ⟨rfl, fun hcalm => hcalm.emit _⟩
    | halt => cases h
    | exit => cases h
  | error error =>
    by_cases hfatal : error.isFatal = true
    · rw [conclude_of_fatal hfatal] at h
      cases h
    · rw [conclude_of_not_fatal hfatal] at h
      cases h
      exact ⟨rfl, fun hcalm => (hcalm.emit _).emit _⟩

lemma running_of_again (h : e.debugger.Calm) (hr : e.round w = .again w' e') :
    e'.running = e.running := by
  obtain ⟨line, hc⟩ := line_of_again h hr
  rw [(on_of_conclude hc).1, execute_snd]
  rfl

/-- Subscribers that keep calm let the engine be calm. -/
lemma calm_of_again (h : e.machine.Calm) (hr : e.round w = .again w' e') : e'.machine.Calm := by
  obtain ⟨line, hc⟩ := line_of_again h.debugger hr
  have hcounted : e.counted.machine.Calm :=
    ⟨h.bus, ⟨h.debugger.breakpoints, h.debugger.stepMode, h.debugger.breakNext, rfl⟩⟩
  have hleft : (final (e.counted.effect line.text)).Calm :=
    (composed_execute _ line.text).keeps (kept_calm _) e.counted.machine hcounted
  refine (on_of_conclude hc).2 ?_
  rw [execute_snd]
  exact ⟨hleft.bus, hleft.debugger⟩

/-- The debugger is calm whenever a round begins. -/
def Undisturbed (w : Waiting) (e : Engine) : Prop :=
  ∀ w' s, Reaches w e w' s → s.debugger.Calm

/-- A run is undisturbed if there is no breakpoint, the step mode is off, and the subscribers keep
calm. -/
lemma undisturbed_of_calm (hb : e.debugger.breakpoints = []) (hs : e.debugger.stepMode = false)
    (hbus : e.machine.bus.Calm) (w : Waiting) : Undisturbed w e.start := by
  have hreached : ∀ {v v' : Waiting} {t s : Engine}, Reaches v t v' s → t.machine.Calm →
      s.machine.Calm := by
    intro v v' t s hr
    induction hr with
    | here => exact id
    | round hround _ ih => exact fun ht => ih (calm_of_again ht hround)
  have hcleared : e.clearRun.machine.Calm := ⟨hbus, ⟨hb, hs, rfl, rfl⟩⟩
  intro w' s hr
  exact (hreached hr (hcleared.emit .programStarted)).debugger

lemma plan_of_running (h : e.debugger.Calm) (hrun : e.running = true) :
    e.plan =
      if e.settings.maxCommands ≤ e.machine.used then .exhausted
      else
        match e.program.line? e.index with
        | none => .finish
        | some line => .line line := by
  rw [plan_of_calm h, course, hrun]
  rfl

/-- **What a round tells.** -/
theorem told_round (h : e.debugger.Calm) (hrun : e.running = true) (w : Waiting) :
    ∃ es, Records e.machine (e.round w).engine.machine es ∧
      Told e.program e.visit e.errors (e.round w) (events es) := by
  have hheard : Records e.machine e.heard.machine [] := .none rfl rfl
  have hplan := plan_of_running h hrun
  by_cases hu : e.settings.maxCommands ≤ e.machine.used
  · -- the commands are used up
    rw [if_pos hu] at hplan
    obtain ⟨receivers, hr⟩ := records_report e.heard (.runaway e.settings.maxCommands)
    obtain ⟨receivers', hr'⟩ := records_halt
      (e.heard.report (.runaway e.settings.maxCommands)) (.runaway e.settings.maxCommands)
    rw [round_eq, visit, hplan]
    refine ⟨_, hheard.trans (hr.trans hr'), .ended ?_ ?_⟩
    · exact .exhausted (e := ((e.heard.report (.runaway e.settings.maxCommands)).halt
        (.runaway e.settings.maxCommands)).2) hu
    · intro k hk
      cases hk
  · rw [if_neg hu] at hplan
    cases hl : e.program.line? e.index with
    | none =>
      -- the end of the program
      rw [hl] at hplan
      obtain ⟨receivers, hr⟩ := records_complete e.heard
      rw [round_eq, visit, hplan]
      refine ⟨_, hheard.trans hr, .ended .completed ?_⟩
      intro k hk
      cases hk
      rfl
    | some line =>
      rw [hl] at hplan
      -- first what the command tells, then what is told about its line
      obtain ⟨es, hr, hes⟩ := (composed_execute e.settings.maxCallDepth line.text).leaves
        e.counted.environment e.counted.machine
      have hexecuted : Records e.machine (e.counted.execute line.text).2.machine es := by
        rw [execute_snd]
        exact ⟨hr.log, hr.vars, hr.named⟩
      have hsame : (e.counted.execute line.text).2.program = e.program ∧
          (e.counted.execute line.text).2.index = e.index ∧
          (e.counted.execute line.text).2.errors = e.errors := by
        rw [execute_snd]
        exact ⟨rfl, rfl, rfl⟩
      obtain ⟨hprogram, hindex, herrors⟩ := hsame
      obtain ⟨fs, hr', htold⟩ := told_conclude (s := (e.counted.execute line.text).2)
        (by rw [hprogram, hindex]; exact hl) hes w (e.counted.execute line.text).1
      rw [hprogram, hindex, herrors, ← events_append] at htold
      rw [hindex] at hr'
      rw [round_eq, visit, hplan]
      exact ⟨_, hexecuted.trans hr', htold⟩

/-- **What a run tells.** -/
theorem told_go (w : Waiting) (h : Undisturbed w e) (hrun : e.running = true) :
    ∃ es, Records e.machine (e.go w).2.machine es ∧
      Trace e.program (e.visited w) (e.go w) (events es) ∧
      ∀ n, (e.go w).1 = .completed n → n = e.errors + (events es).countP isError := by
  induction w, e using go_induction with
  | step w e ih =>
    obtain ⟨es, hr, htold⟩ := told_round (h w e .here) hrun w
    rw [go_eq]
    -- what the round tells stands before what is told by the rest of the run
    cases hround : e.round w with
    | ended r =>
      rw [hround] at hr htold
      rw [visited_of_ended hround]
      cases htold with
      | ended htrace hn => exact ⟨es, hr, htrace, hn⟩
    | again w' e' =>
      rw [hround] at hr htold
      have hrun' : e'.running = true := (running_of_again (h w e .here) hround).trans hrun
      have hfree : Undisturbed w' e' := fun v s hs => h v s (.round hround hs)
      obtain ⟨fs, hr', htrace, hn'⟩ := ih w' e' hround hfree hrun'
      rw [visited_of_again hround]
      cases htold with
      | again hi hblock hn =>
        rw [program_of_again hround] at htrace
        refine ⟨es ++ fs, hr.trans hr', ?_, ?_⟩
        · rw [hi, events_append]
          exact .block hblock htrace
        · intro n hcompleted
          rw [hn' n hcompleted, hn, events_append, List.countP_append, Nat.add_assoc]

/-- **The events of a run.** A run that nothing makes pause or stop tells that it starts, one
block for every line that it executes, and that it is finished. It completes with as many failed
commands as it tells failures. -/
theorem trace_of_drive (e : Engine) (answers : List Debugger.Action)
    (h : Undisturbed (e.waiting answers) e.start) :
    ∃ es evs, (e.drive answers).2.machine.log.toList = e.machine.log.toList ++ es ∧
      events es = .programStarted :: evs ∧
      Trace e.program (e.start.visited (e.waiting answers)) (e.drive answers) evs ∧
      ∀ n, (e.drive answers).1 = .completed n → n = evs.countP isError := by
  obtain ⟨receivers, hstart⟩ := e.records_start
  obtain ⟨es, hr, htrace, hn⟩ := told_go (e.waiting answers) h rfl
  rw [drive_eq]
  refine ⟨_, events es, (hstart.trans hr).log, rfl, htrace, fun n hcompleted => ?_⟩
  rw [hn n hcompleted]
  exact Nat.zero_add _

/-- A program that completes though one of its commands fails. -/
theorem trace_of_drive_failed :
    ∃ e : Engine,
      ((new default {}).subscribe .output fun _ _ => .done).2.load
        "T:GO\nFROB\nU:X=1".toList = .ok e ∧
      Undisturbed (e.waiting []) e.start ∧
      e.start.visited (e.waiting []) = [0, 1, 2] ∧ (e.drive []).1.isSuccess = true ∧
      ∃ es evs, (e.drive []).2.machine.log.toList = e.machine.log.toList ++ es ∧
        events es = .programStarted :: evs ∧
        Trace e.program (e.start.visited (e.waiting [])) (e.drive []) evs ∧
        ∀ n, (e.drive []).1 = .completed n → n = evs.countP isError := by
  have hcalm : ∀ e : Engine, e.debugger = {} → e.machine.bus.subscribers =
      ((new default {}).subscribe .output fun _ _ => .done).2.machine.bus.subscribers →
        Undisturbed (e.waiting []) e.start := by
    intro e hd hsub
    refine undisturbed_of_calm (by rw [hd]) (by rw [hd]) (fun s hs n ev d hcalm => ?_) _
    rw [hsub] at hs
    rw [List.mem_singleton.1 hs]
    exact hcalm
  exact ⟨_, rfl, hcalm _ rfl rfl, by decide +kernel, by decide +kernel,
    trace_of_drive _ [] (hcalm _ rfl rfl)⟩

end Engine

end Courseware
