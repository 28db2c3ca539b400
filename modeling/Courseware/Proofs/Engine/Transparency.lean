import Courseware.Proofs.Engine.Shadowing

/-!
The debugger is transparent.

However a host sets breakpoints, changes the step mode, resumes and steps, a program that comes
to its end has done what it does in one run without the debugger: the same lines were executed
in the same order, with the same events and the same state in the end. The two have one source of
random numbers, which may be any: where the program starts a generator without a seed, both get
the next one of that source.
-/

namespace Courseware

def Outcome.isPaused : Outcome → Bool
  | .paused _ => true
  | _ => false

namespace Engine

variable {e e' s s' f f' : Engine}

/-! ### Sessions with the debugger -/

/-- What a host may change while the program is paused. -/
inductive Change where
  | toggle (i : Nat)
  | clearBreakpoints
  | setStepMode (b : Bool)

def Change.action : Change → Debugger.Action
  | .toggle i => .toggle i
  | .clearBreakpoints => .clearBreakpoints
  | .setStepMode b => .setStepMode b

def change (e : Engine) (cs : List Change) : Engine := cs.foldl (fun e c => e.perform c.action) e

/-- How a session begins. -/
inductive Opening where
  | run
  | step

def Opening.call : Opening → Call
  | .run => .run
  | .step => .step

/-- How a session goes on after a pause. -/
inductive Move where
  | resume
  | step

def Move.call : Move → Call
  | .resume => .resume
  | .step => .step

/-- What a call does: the lines that it executes, its outcome, and the engine after it. -/
structure Report where
  call : Call
  visits : List Nat
  outcome : Outcome
  engine : Engine

def answer (e : Engine) (c : Call) : Report :=
  { call := c
    visits := (e.entry c).elim [] (·.visited .yield)
    outcome := (e.call c).1
    engine := (e.call c).2 }

/-- A session with the debugger, from a call to the first outcome that is no pause: the reports
of its calls, and the last of them. -/
inductive Session : Engine → Call → List Report → Report → Prop where
  | ends {e : Engine} {c : Call} (h : (e.answer c).outcome.isPaused = false) :
      Session e c [e.answer c] (e.answer c)
  | goesOn {e : Engine} {c : Call} {rs : List Report} {last : Report}
      (h : (e.answer c).outcome.isPaused = true) (cs : List Change) (m : Move)
      (hs : Session ((e.answer c).engine.change cs) m.call rs last) :
      Session e c (e.answer c :: rs) last

/-- What two runs have in common that did the same. -/
structure Agree (e e' : Engine) : Prop where
  /-- Events, prompts and requests, apart from breakpoints. -/
  entries : e.machine.log.filter (!·.isBreak) = e'.machine.log.filter (!·.isBreak)
  vars : e.machine.vars = e'.machine.vars
  turtle : e.machine.turtle = e'.machine.turtle
  returns : e.machine.returns = e'.machine.returns
  loops : e.machine.loops = e'.machine.loops
  verdict : e.machine.verdict = e'.machine.verdict
  dataRead : e.machine.dataRead = e'.machine.dataRead
  random : e.machine.random = e'.machine.random
  host : e.machine.host = e'.machine.host
  used : e.machine.used = e'.machine.used
  index : e.index = e'.index
  running : e.running = e'.running
  errors : e.errors = e'.errors

lemma agree_of_seen (h : s.seen = f.seen) : Agree s f where
  entries := congrArg (·.machine.log) h
  vars := congrArg (·.machine.vars) h
  turtle := congrArg (·.machine.turtle) h
  returns := congrArg (·.machine.returns) h
  loops := congrArg (·.machine.loops) h
  verdict := congrArg (·.machine.verdict) h
  dataRead := congrArg (·.machine.dataRead) h
  random := congrArg (·.machine.random) h
  host := congrArg (·.machine.host) h
  used := congrArg (·.machine.used) h
  index := congrArg (·.index) h
  running := congrArg (·.running) h
  errors := congrArg (·.errors) h

/-! ### Between the calls of a session -/

/-- Changes reach the debugger only, and neither end a pause nor stop the program. -/
lemma change_eq (e : Engine) (cs : List Change) :
    ∃ d, e.change cs = e.setDebugger d ∧ d.stopRequested = e.debugger.stopRequested ∧
      d.pausedAt = e.debugger.pausedAt := by
  induction cs generalizing e with
  | nil => exact ⟨e.debugger, rfl, rfl, rfl⟩
  | cons c cs ih =>
    obtain ⟨d, hd, hstop, hpause⟩ := ih (e.perform c.action)
    have hc : (e.perform c.action).debugger.stopRequested = e.debugger.stopRequested ∧
        (e.perform c.action).debugger.pausedAt = e.debugger.pausedAt := by
      cases c with
      | toggle i =>
        change (e.debugger.toggle i).stopRequested = _ ∧ (e.debugger.toggle i).pausedAt = _
        unfold Debugger.toggle
        split <;> exact ⟨rfl, rfl⟩
      | clearBreakpoints => exact ⟨rfl, rfl⟩
      | setStepMode b => exact ⟨rfl, rfl⟩
    exact ⟨d, hd, hstop.trans hc.1, hpause.trans hc.2⟩

lemma Shadows.setDebugger (h : Shadows s f) (d : Debugger) (hd : d.stopRequested = false)
    (i : Option Nat) : Shadows { s.setDebugger d with resumeAt := i } f :=
  { h with unstopped := hd }

lemma Held.change (h : Held s f) (cs : List Change) : Held (s.change cs) f := by
  obtain ⟨d, hd, hstop, hpause⟩ := s.change_eq cs
  rw [hd]
  exact
    { h with
      unstopped := hstop.trans h.unstopped
      pausedAt := hpause.trans h.pausedAt }

/-- The engine executes one line and pauses before the next. -/
structure Stepping (s : Engine) : Prop where
  resumeAt : s.resumeAt = some s.index
  breakNext : s.debugger.breakNext = true

/-- A paused program goes on where it has paused. -/
lemma entry_of_held (h : Held s f) (m : Move) :
    ∃ s', s.entry m.call = some s' ∧ Shadows s' f ∧ (m.call = .step → Stepping s') := by
  cases m with
  | resume =>
    have hs : s.resumed = { s.setDebugger s.debugger.endPause with resumeAt := some s.index } := by
      unfold resumed
      rw [h.pausedAt]
    refine ⟨s.resumed, if_pos h.running, ?_, fun hm => by cases hm⟩
    rw [hs]
    exact h.toShadows.setDebugger s.debugger.endPause h.unstopped _
  | step =>
    have hs : (if s.running then s else s.start) = s := if_pos h.running
    refine ⟨s.stepped, ?_, ?_, fun _ => ⟨?_, rfl⟩⟩
    · exact congrArg (fun e : Engine => some e.stepped) hs
    · exact h.toShadows.setDebugger s.debugger.endPause.requestBreak h.unstopped _
    · change some (s.debugger.pausedAt.getD s.index) = some s.index
      rw [h.pausedAt]
      rfl

/-- A step that pauses has executed one line. -/
lemma visited_of_stepping (h : Shadows s f) (hs : Stepping s) {i : Nat} {r : Engine}
    (hp : s.go .yield = (.paused i, r)) : (s.visited .yield).length = 1 := by
  -- the line at which the step begins is executed, whatever the debugger says
  have hgo : ∀ reason, s.plan ≠ .pause reason := fun reason hplan =>
    (ready_of_plan_pause hplan).2.1 hs.resumeAt
  cases hr : s.round .yield with
  | ended r' =>
    have hend := not_paused_of_round hgo hr i
    rw [go_eq, hr] at hp
    cases hp
    exact absurd rfl hend
  | again w s' =>
    obtain ⟨⟨line, hplan⟩, rfl, hpassive, hd, hres⟩ := again_of_round hr h.passive
    -- the request to break is still there after it
    have hbreak : s'.debugger.breakNext = true := by
      rw [hd]
      exact hs.breakNext
    -- the next line is not executed, since there is a reason to pause
    have hline : ∀ line', s'.plan ≠ .line line' := by
      intro line' hplan'
      rcases (ready_of_plan_line hplan').2 with hres' | hreason
      · rw [hres] at hres'
        cases hres'
      · unfold Debugger.reason? at hreason
        rw [hbreak, Bool.or_true] at hreason
        split at hreason <;> cases hreason
    have hvisit : s.visit = [s.index] := by
      unfold visit
      rw [hplan]
    have hvisit' : s'.visit = [] := by
      unfold visit
      split
      · next line' hplan' => exact absurd hplan' (hline line')
      · rfl
    rw [visited_of_again hr, hvisit]
    cases hr' : s'.round .yield with
    | ended r' => rw [visited_of_ended hr', hvisit']; rfl
    | again w t =>
      obtain ⟨⟨line', hplan'⟩, -⟩ := again_of_round hr' hpassive
      exact absurd hplan' (hline line')

/-! ### Whole sessions -/

lemma answer_of_entry {c : Call} (hy : e.settings.suspend = .yield) (he : e.entry c = some s) :
    e.answer c = ⟨c, s.visited .yield, (s.go .yield).1, (s.go .yield).2⟩ := by
  unfold answer
  rw [call_of_entry hy he, he]
  rfl

/-- What a session does, seen beside the free run that it shadows. -/
lemma session_shadows {c : Call} {rs : List Report} {last : Report} (hs : Session e c rs last)
    (hy : e.settings.suspend = .yield) (he : e.entry c = some s) (h : Shadows s f)
    (hstep : c = .step → Stepping s) :
    last.outcome = (f.go .yield).1 ∧ last.engine.seen = (f.go .yield).2.seen ∧
      rs.flatMap Report.visits = f.visited .yield ∧
      ∀ r ∈ rs, r.call = .step → r.outcome.isPaused = true → r.visits.length = 1 := by
  induction hs generalizing s f with
  | @ends e c hend =>
    rw [answer_of_entry hy he] at hend ⊢
    -- the call has not paused, so the free run ends with it
    rcases go_of_shadows h with ⟨i, s', f', hgo, -⟩ | ⟨-, ho, hseen, hv⟩
    · rw [hgo] at hend
      cases hend
    · refine ⟨ho, hseen, ?_, ?_⟩
      · rw [List.flatMap_singleton, hv]
      · intro r hr _ hp
        rw [List.mem_singleton.1 hr, hend] at hp
        cases hp
  | @goesOn e c rs last hpause cs m _ ih =>
    rw [answer_of_entry hy he] at hpause ih ⊢
    rcases go_of_shadows h with ⟨i, s', f', hgo, hheld, hfree, hv⟩ | ⟨hp, -⟩
    · -- the call has paused, and the free run is held at the same place
      have hheld' := hheld.change cs
      obtain ⟨t, ht, hshadows, htstep⟩ := entry_of_held hheld' m
      rw [hgo] at ih
      obtain ⟨ho, hseen, hvs, hones⟩ := ih hheld'.yields ht hshadows htstep
      refine ⟨ho.trans (by rw [hfree]), hseen.trans (by rw [hfree]), ?_, ?_⟩
      · rw [List.flatMap_cons, hvs, hv]
      · intro r hr hc hp
        rcases List.mem_cons.1 hr with rfl | hr
        · exact visited_of_stepping h (hstep hc) hgo
        · exact hones r hr hc hp
    · cases ho : (s.go .yield).1 with
      | paused i => exact absurd ho (hp i)
      | _ => rw [ho] at hpause; cases hpause

lemma start_passive (hp : e.machine.bus.Passive) :
    e.start.machine.bus.Passive ∧ e.start.debugger = e.debugger.resetRun :=
  emit_passive (e := { e.clearRun with running := true }) hp .programStarted

/-- The engine without breakpoints and with step mode off. -/
def undebugged (e : Engine) : Engine := e.change [.clearBreakpoints, .setStepMode false]

/-- A program that begins under the debugger shadows one that begins without it. -/
lemma shadows_start (hy : e.settings.suspend = .yield) (hp : e.machine.bus.Passive)
    (before : List Change) : Shadows (e.change before).start e.undebugged.start := by
  obtain ⟨d, hd, -, -⟩ := e.change_eq before
  rw [hd]
  obtain ⟨hps, hds⟩ := start_passive (e := e.setDebugger d) hp
  obtain ⟨hpf, hdf⟩ := start_passive (e := e.undebugged) hp
  exact
    { same := start_congr (s := e.setDebugger d) rfl
      yields := hy
      passive := hps
      unstopped := by rw [hds]; rfl
      free_passive := hpf
      free_unstopped := by rw [hdf]; rfl
      free_reason := fun i => by rw [hdf]; rfl }

/-- A program that is not running can be begun in both ways. -/
lemma entry_of_opening (hy : e.settings.suspend = .yield) (hp : e.machine.bus.Passive)
    (hr : e.running = false) (before : List Change) (o : Opening) :
    ∃ s, (e.change before).entry o.call = some s ∧ Shadows s e.undebugged.start ∧
      (o.call = .step → Stepping s) := by
  have h := shadows_start hy hp before
  cases o with
  | run => exact ⟨_, rfl, h, fun ho => by cases ho⟩
  | step =>
    obtain ⟨d, hd, -, -⟩ := e.change_eq before
    rw [hd] at h ⊢
    obtain ⟨-, hds⟩ := start_passive (e := e.setDebugger d) hp
    have hrun : ¬ (e.setDebugger d).running = true := by
      change ¬ e.running = true
      rw [hr]
      exact Bool.false_ne_true
    refine ⟨(e.setDebugger d).start.stepped, ?_, ?_, fun _ => ⟨?_, rfl⟩⟩
    · exact congrArg (fun e : Engine => some e.stepped) (if_neg hrun)
    · exact h.setDebugger (e.setDebugger d).start.debugger.endPause.requestBreak h.unstopped _
    · unfold stepped
      rw [hds]
      rfl

/-- **The debugger is transparent.** If subscribers only listen, a session ends as one run
without the debugger does, it executes the same lines in the same order, and a step that pauses
executes one line. This is so for every source of random numbers that the engine may have, with a
seed and without one. -/
theorem session_eq_run {e₀ : Engine} {source : Text} (hload : e₀.load source = .ok e)
    (hy : e₀.settings.suspend = .yield) (hp : e₀.machine.bus.Passive) (before : List Change)
    (o : Opening) {rs : List Report} {last : Report}
    (hs : Session (e.change before) o.call rs last) :
    last.outcome = (e.undebugged.answer .run).outcome ∧
      Agree last.engine (e.undebugged.answer .run).engine ∧
      rs.flatMap Report.visits = (e.undebugged.answer .run).visits ∧
      ∀ r ∈ rs, r.call = .step → r.outcome.isPaused = true → r.visits.length = 1 := by
  obtain ⟨hset, -, hbus, hr⟩ := of_load hload
  have hy' : e.settings.suspend = .yield := by rw [hset]; exact hy
  have hp' : e.machine.bus.Passive := by rw [hbus]; exact hp
  obtain ⟨s, he, hshadows, hstep⟩ := entry_of_opening hy' hp' hr before o
  obtain ⟨d, hd, -, -⟩ := e.change_eq before
  have hys : (e.change before).settings.suspend = .yield := by rw [hd]; exact hy'
  obtain ⟨ho, hseen, hv, hones⟩ := session_shadows hs hys he hshadows hstep
  rw [answer_of_entry (e := e.undebugged) (c := .run) hy' rfl]
  exact ⟨ho, agree_of_seen hseen, hv, hones⟩

/-- A random number from a generator without a seed, with a pause at a breakpoint before it, then
one in step mode, and then a step. -/
theorem session_eq_run_randomized :
    ∃ e rs last, (new (.counting 5) { suspend := .yield, seed := some 7 }).load
        "RANDOMIZE\nLET X=RND()\nL:C".toList = .ok e ∧
      Session (e.change [.toggle 1]) .run rs last ∧ rs.length = 3 ∧
      last.outcome.isSuccess = true ∧ last.engine.machine.vars.keys = ["X".toList] ∧
      last.engine.machine.random.source.taken = 1 ∧
      last.outcome = (e.undebugged.answer .run).outcome ∧
      Agree last.engine (e.undebugged.answer .run).engine ∧
      rs.flatMap Report.visits = (e.undebugged.answer .run).visits ∧
      ∀ r ∈ rs, r.call = .step → r.outcome.isPaused = true → r.visits.length = 1 := by
  obtain ⟨e₀, he₀⟩ : ∃ e₀, e₀ = new (.counting 5) { suspend := .yield, seed := some 7 } := ⟨_, rfl⟩
  obtain ⟨e, rs, last, hload, hs, hlength, hsuccess, hkeys, htaken⟩ :
      ∃ e rs last, e₀.load "RANDOMIZE\nLET X=RND()\nL:C".toList = .ok e ∧
        Session (e.change [.toggle 1]) .run rs last ∧ rs.length = 3 ∧
        last.outcome.isSuccess = true ∧ last.engine.machine.vars.keys = ["X".toList] ∧
        last.engine.machine.random.source.taken = 1 := by
    subst he₀
    exact ⟨_, _, _, rfl,
      .goesOn (by decide +kernel) [.clearBreakpoints, .setStepMode true] .resume
        (.goesOn (by decide +kernel) [.setStepMode false] .step (.ends (by decide +kernel))),
      rfl, by decide +kernel, by decide +kernel, by decide +kernel⟩
  have hyield : e₀.settings.suspend = .yield := he₀ ▸ rfl
  have hpassive : e₀.machine.bus.Passive := fun s hs => by
    subst he₀
    cases hs
  subst he₀
  exact ⟨e, rs, last, hload, hs, hlength, hsuccess, hkeys, htaken,
    session_eq_run hload hyield hpassive [.toggle 1] .run hs⟩

end Engine

end Courseware
