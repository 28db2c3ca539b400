import Courseware.Proofs.Engine.Rounds
import Courseware.Proofs.Machine.Visibility

/-!
A run under the debugger beside a run without it.

The engine that is debugged shadows one that is never paused: what is seen of the two is the
same, though their debuggers differ. A round of the first is either a pause, in which the second
does nothing, or a round of both.
-/

namespace Courseware.Engine

open Exec

variable {e e' s s' f f' : Engine} {w w' : Waiting}

/-! ### What is seen of an engine -/

/-- What is seen of an engine without the debugger. -/
def seen (e : Engine) : Engine := { e with machine := e.machine.seen, resumeAt := none }

lemma emit_congr (h : s.seen = f.seen) (ev : Event) : (s.emit ev).seen = (f.emit ev).seen := by
  have hemit : ∀ e : Engine, (e.emit ev).seen =
      { e.seen with machine := (e.seen.machine.emit ev).seen } := by
    intro e
    unfold emit seen
    dsimp only
    rw [Machine.seen_emit]
  rw [hemit s, hemit f, h]

lemma report_congr (h : s.seen = f.seen) (error : ExecError) :
    (s.report error).seen = (f.report error).seen := by
  have hp : s.program = f.program := congrArg (·.program) h
  have hi : s.index = f.index := congrArg (·.index) h
  unfold report
  rw [hp, hi]
  exact emit_congr h _

lemma start_congr (h : s.seen = f.seen) : s.start.seen = f.start.seen := by
  refine emit_congr ?_ _
  exact congrArg (fun e : Engine => { e.clearRun with
    running := true, machine := { e.clearRun.machine with debugger := {} } }) h

/-- What is seen of a round. -/
def Round.seen : Round → Round
  | .ended r => .ended (r.1, r.2.seen)
  | .again w e => .again w e.seen

lemma complete_congr (h : s.seen = f.seen) :
    Round.seen (.ended s.complete) = Round.seen (.ended f.complete) := by
  have hn : s.errors = f.errors := congrArg (·.errors) h
  have hr : { s with running := false }.seen = { f with running := false }.seen :=
    congrArg (fun e : Engine => { e with running := false }) h
  refine congrArg Round.ended (Prod.ext ?_ (emit_congr hr _))
  exact congrArg Outcome.completed hn

lemma halt_congr (h : s.seen = f.seen) (error : ExecError) :
    Round.seen (.ended (s.halt error)) = Round.seen (.ended (f.halt error)) := by
  have hr : { s with running := false }.seen = { f with running := false }.seen :=
    congrArg (fun e : Engine => { e with running := false }) h
  exact congrArg Round.ended (Prod.ext rfl (emit_congr hr _))

lemma conclude_congr (h : s.seen = f.seen) (w : Waiting) (i : Nat)
    (x : Except ExecError Directive) :
    (conclude w i x s).seen = (conclude w i x f).seen := by
  have hindex : ∀ j, { s with index := j }.seen = { f with index := j }.seen := fun j =>
    congrArg (fun e : Engine => { e with index := j }) h
  cases x with
  | ok d =>
    cases d with
    | next => exact congrArg (Round.again w) (emit_congr (hindex (i + 1)) _)
    | jump j => exact congrArg (Round.again w) (emit_congr (hindex j) _)
    | halt => exact complete_congr (emit_congr h _)
    | exit => exact complete_congr (emit_congr h _)
  | error error =>
    have hr := report_congr h error
    by_cases hfatal : error.isFatal = true
    · rw [conclude_of_fatal hfatal, conclude_of_fatal hfatal]
      exact halt_congr hr error
    · rw [conclude_of_not_fatal hfatal, conclude_of_not_fatal hfatal]
      refine congrArg (Round.again w) (emit_congr ?_ _)
      exact congrArg (fun e : Engine => { e with errors := e.errors + 1, index := i + 1 }) hr

/-- Lines look alike on engines that look alike. -/
lemma execute_congr (h : s.seen = f.seen) (t : Text) :
    (s.execute t).1 = (f.execute t).1 ∧ (s.execute t).2.seen = (f.execute t).2.seen := by
  have hp : s.program = f.program := congrArg (·.program) h
  have hs : s.settings = f.settings := congrArg (·.settings) h
  have hi : s.index = f.index := congrArg (·.index) h
  have hm : s.machine.seen = f.machine.seen := congrArg (·.machine) h
  -- the commands cannot tell the engines apart
  have hlook : look (f.effect t) = look (s.effect t) := by
    unfold effect environment
    rw [hp, hs, hi]
    exact (composed_execute _ t).look_eq _ hm.symm
  -- neither can the end of the line, which settles the verdict
  have hset : ∀ {m n : Machine}, n.seen = m.seen →
      { s with machine := { m with verdict := m.verdict.settle } }.seen =
        { f with machine := { n with verdict := n.verdict.settle } }.seen := by
    intro m n hn
    have hv : { m with verdict := m.verdict.settle }.seen =
        { n with verdict := n.verdict.settle }.seen :=
      congrArg (fun k : Machine => { k with verdict := k.verdict.settle }) hn.symm
    unfold seen
    dsimp only
    rw [hv]
    exact congrArg (fun e : Engine =>
      { e with machine := { n with verdict := n.verdict.settle }.seen }) h
  cases hr : s.effect t with
  | ok d m =>
    rw [hr] at hlook
    obtain ⟨n, hr', hn⟩ := of_look_ok hlook
    rw [execute_of_ok hr, execute_of_ok hr']
    exact ⟨rfl, hset hn⟩
  | error error m =>
    rw [hr] at hlook
    obtain ⟨n, hr', hn⟩ := of_look_error hlook
    rw [execute_of_error hr, execute_of_error hr']
    exact ⟨rfl, hset hn⟩

/-! ### The debugger of a run -/

lemma emit_passive (h : e.machine.bus.Passive) (ev : Event) :
    (e.emit ev).machine.bus.Passive ∧ (e.emit ev).debugger = e.debugger :=
  ⟨Bus.passive_emit h ev, Machine.debugger_emit h ev⟩

lemma execute_passive (h : e.machine.bus.Passive) (t : Text) :
    (e.execute t).2.machine.bus.Passive ∧ (e.execute t).2.debugger = e.debugger := by
  rw [execute_snd]
  exact (composed_execute _ t).passive e.environment h

lemma again_of_conclude {i : Nat} {x : Except ExecError Directive}
    (h : conclude w i x e = .again w' e') (hp : e.machine.bus.Passive) :
    w' = w ∧ e'.machine.bus.Passive ∧ e'.debugger = e.debugger ∧ e'.resumeAt = e.resumeAt := by
  cases x with
  | ok d =>
    cases d with
    | next =>
      cases h
      exact ⟨rfl, (emit_passive hp _).1, (emit_passive hp _).2, rfl⟩
    | jump j =>
      cases h
      exact ⟨rfl, (emit_passive hp _).1, (emit_passive hp _).2, rfl⟩
    | halt => cases h
    | exit => cases h
  | error error =>
    by_cases hfatal : error.isFatal = true
    · rw [conclude_of_fatal hfatal] at h
      cases h
    · rw [conclude_of_not_fatal hfatal] at h
      cases h
      obtain ⟨hp₁, hd₁⟩ : (e.report error).machine.bus.Passive ∧
          (e.report error).debugger = e.debugger := emit_passive hp _
      exact ⟨rfl, (emit_passive hp₁ _).1, (emit_passive hp₁ _).2.trans hd₁, rfl⟩

/-- The engine `s` is debugged, and `f` looks the same but is never paused. -/
structure Shadows (s f : Engine) : Prop where
  same : s.seen = f.seen
  yields : s.settings.suspend = .yield
  passive : s.machine.bus.Passive
  unstopped : s.debugger.stopRequested = false
  free_passive : f.machine.bus.Passive
  free_unstopped : f.debugger.stopRequested = false
  free_reason : ∀ i, f.debugger.reason? i = none

/-- What the next round does if there is neither a pause nor a stop. -/
def course (e : Engine) : Plan :=
  if !e.running then .idle
  else if e.settings.maxCommands ≤ e.machine.used then .exhausted
  else
    match e.program.line? e.index with
    | none => .finish
    | some line => .line line

lemma plan_or_pause (h : e.debugger.stopRequested = false) :
    e.plan = e.course ∨
      ∃ reason, e.plan = .pause reason ∧ e.debugger.reason? e.index = some reason := by
  unfold plan course
  rw [h, if_neg Bool.false_ne_true]
  by_cases hr : (!e.running) = true
  · rw [if_pos hr, if_pos hr]
    exact .inl rfl
  rw [if_neg hr, if_neg hr]
  by_cases hu : e.settings.maxCommands ≤ e.machine.used
  · rw [if_pos hu, if_pos hu]
    exact .inl rfl
  rw [if_neg hu, if_neg hu]
  cases e.program.line? e.index with
  | none => exact .inl rfl
  | some line =>
    -- the two differ only where a line is due
    dsimp only
    split
    · exact .inl rfl
    · cases hreason : e.debugger.reason? e.index with
      | none => exact .inl rfl
      | some reason => exact .inr ⟨reason, rfl, rfl⟩

lemma course_congr (h : s.seen = f.seen) : s.course = f.course := by
  have hr : s.running = f.running := congrArg (·.running) h
  have hs : s.settings = f.settings := congrArg (·.settings) h
  have hp : s.program = f.program := congrArg (·.program) h
  have hi : s.index = f.index := congrArg (·.index) h
  have hu : s.machine.used = f.machine.used := congrArg (·.machine.used) h
  unfold course
  rw [hr, hs, hp, hi, hu]

/-- Both engines plan the same, unless the one that is debugged pauses. -/
lemma plan_of_shadows (h : Shadows s f) : (∃ reason, s.plan = .pause reason) ∨ f.plan = s.plan := by
  have hf : f.plan = f.course := by
    rcases plan_or_pause h.free_unstopped with hf | ⟨reason, -, hr⟩
    · exact hf
    · rw [h.free_reason] at hr
      cases hr
  rcases plan_or_pause h.unstopped with hs | ⟨reason, hs, -⟩
  · exact .inr (by rw [hf, hs, course_congr h.same])
  · exact .inl ⟨reason, hs⟩

/-! ### Rounds of both engines -/

lemma again_of_round (h : e.round .yield = .again w' e') (hp : e.machine.bus.Passive) :
    (∃ line, e.plan = .line line) ∧ w' = .yield ∧ e'.machine.bus.Passive ∧
      e'.debugger = e.debugger.takeStop.2 ∧ e'.resumeAt = none := by
  rcases plan_of_again h with ⟨line, hplan, hc⟩ | ⟨reason, -, hpause⟩
  · obtain ⟨hp₁, hd₁⟩ := execute_passive (e := e.counted) hp line.text
    obtain ⟨hw, hp₂, hd₂, hres⟩ := again_of_conclude hc hp₁
    rw [execute_snd] at hres
    exact ⟨⟨line, hplan⟩, hw, hp₂, hd₂.trans hd₁, hres⟩
  · rw [pause_yield] at hpause
    cases hpause

lemma round_congr (h : s.seen = f.seen) (hplan : f.plan = s.plan)
    (hgo : ∀ reason, s.plan ≠ .pause reason) :
    (s.round .yield).seen = (f.round .yield).seen := by
  have hs : s.settings = f.settings := congrArg (·.settings) h
  have hi : s.index = f.index := congrArg (·.index) h
  have hheard : s.heard.seen = f.heard.seen := h
  have hended : ({ s.heard with running := false }.setDebugger s.heard.debugger.endPause).seen =
      ({ f.heard with running := false }.setDebugger f.heard.debugger.endPause).seen :=
    congrArg (fun e : Engine => { e with running := false }) h
  have hcounted : s.counted.seen = f.counted.seen :=
    congrArg (fun e : Engine =>
      { e with machine := { e.machine with used := e.machine.used + 1 } }) h
  rw [round_eq, round_eq, hplan]
  cases hp : s.plan with
  | stop => exact congrArg Round.ended (Prod.ext rfl (emit_congr hended _))
  | pause reason => exact absurd hp (hgo reason)
  | idle => exact congrArg Round.ended (Prod.ext rfl hheard)
  | exhausted =>
    dsimp only
    rw [hs]
    exact halt_congr (report_congr hheard _) _
  | finish => exact complete_congr hheard
  | line line =>
    obtain ⟨hx, hm⟩ := execute_congr hcounted line.text
    dsimp only
    rw [hx, hi]
    exact conclude_congr hm _ _ _

lemma not_paused_of_conclude {r : Outcome × Engine} {i : Nat} {x : Except ExecError Directive}
    (h : conclude w i x e = .ended r) (j : Nat) : r.1 ≠ .paused j := by
  unfold conclude at h
  split at h
  · cases h
  · cases h
  · cases h
    exact fun hj => by cases hj
  · cases h
    exact fun hj => by cases hj
  · split at h
    · cases h
      exact fun hj => by cases hj
    · cases h

lemma not_paused_of_round {r : Outcome × Engine} (hgo : ∀ reason, e.plan ≠ .pause reason)
    (h : e.round w = .ended r) (i : Nat) : r.1 ≠ .paused i := by
  rw [round_eq] at h
  cases hp : e.plan with
  | pause reason => exact absurd hp (hgo reason)
  | line line =>
    rw [hp] at h
    exact not_paused_of_conclude h i
  | stop => rw [hp] at h; cases h; exact fun hi => by cases hi
  | idle => rw [hp] at h; cases h; exact fun hi => by cases hi
  | exhausted => rw [hp] at h; cases h; exact fun hi => by cases hi
  | finish => rw [hp] at h; cases h; exact fun hi => by cases hi

/-- Rounds of two engines that look alike. -/
inductive Round.Alike : Round → Round → Prop where
  | ended {r r' : Outcome × Engine} (ho : r.1 = r'.1) (hs : r.2.seen = r'.2.seen)
      (hp : ∀ i, r.1 ≠ .paused i) : Alike (.ended r) (.ended r')
  | again {s f : Engine} (h : Shadows s f) : Alike (.again .yield s) (.again .yield f)

/-- **A round that is no pause is a round of both engines.** -/
theorem round_alike (h : Shadows s f) (hgo : ∀ reason, s.plan ≠ .pause reason) :
    f.plan = s.plan ∧ Round.Alike (s.round .yield) (f.round .yield) := by
  have hplan : f.plan = s.plan := by
    rcases plan_of_shadows h with ⟨reason, hp⟩ | hp
    · exact absurd hp (hgo reason)
    · exact hp
  have hseen := round_congr h.same hplan hgo
  refine ⟨hplan, ?_⟩
  -- what is seen says whether the run goes on, so the mixed cases do not occur
  cases hs : s.round .yield with
  | ended r =>
    cases hf : f.round .yield with
    | ended r' =>
      rw [hs, hf] at hseen
      have hr : (r.1, r.2.seen) = (r'.1, r'.2.seen) := Round.ended.inj hseen
      obtain ⟨ho, he⟩ := Prod.mk.inj hr
      exact .ended ho he (not_paused_of_round hgo hs)
    | again w' f' =>
      rw [hs, hf] at hseen
      cases hseen
  | again w s' =>
    cases hf : f.round .yield with
    | ended r' =>
      rw [hs, hf] at hseen
      cases hseen
    | again w' f' =>
      rw [hs, hf] at hseen
      obtain ⟨-, hsame⟩ := Round.again.inj hseen
      obtain ⟨-, rfl, hps, hds, -⟩ := again_of_round hs h.passive
      obtain ⟨-, rfl, hpf, hdf, -⟩ := again_of_round hf h.free_passive
      exact .again
        { same := hsame
          yields := by rw [settings_of_again hs]; exact h.yields
          passive := hps
          unstopped := by rw [hds]; rfl
          free_passive := hpf
          free_unstopped := by rw [hdf]; rfl
          free_reason := by rw [hdf]; exact h.free_reason }

/-- The engine `s` is paused where `f` would go on. -/
structure Held (s f : Engine) : Prop extends Shadows s f where
  running : s.running = true
  pausedAt : s.debugger.pausedAt = some s.index

lemma seen_breakpointHit (e : Engine) (i : Nat) : (e.emit (.breakpointHit i)).seen = e.seen := by
  unfold emit seen
  dsimp only
  rw [Machine.seen_breakpointHit]

lemma paused_passive (hp : e.machine.bus.Passive) (reason : PauseReason) :
    (e.paused reason).machine.bus.Passive ∧
      (e.paused reason).debugger = e.debugger.beginPause e.index ∧
      (e.paused reason).seen = e.seen ∧ (e.paused reason).running = e.running := by
  cases reason with
  | step => exact ⟨hp, rfl, rfl, rfl⟩
  | breakpoint =>
    obtain ⟨hbus, hd⟩ := emit_passive (e := e.setDebugger (e.debugger.beginPause e.index)) hp
      (.breakpointHit e.index)
    exact ⟨hbus, hd, seen_breakpointHit _ _, rfl⟩

/-- **A pause is not seen.** -/
theorem round_of_pause (h : Shadows s f) {reason : PauseReason} (hp : s.plan = .pause reason) :
    ∃ s', s.round .yield = .ended (.paused s'.index, s') ∧ Held s' f := by
  obtain ⟨⟨line, hready⟩, -, -⟩ := ready_of_plan_pause hp
  obtain ⟨hbus, hd, hsame, hrun⟩ := paused_passive (e := s.arrested) h.passive reason
  obtain ⟨hset, -, hi⟩ := paused_same s.arrested reason
  refine ⟨s.arrested.paused reason, ?_, ?_⟩
  · rw [round_eq, hp]
    exact pause_yield s.arrested reason
  · exact
      { same := hsame.trans h.same
        yields := by rw [hset]; exact h.yields
        passive := hbus
        unstopped := by rw [hd]; rfl
        free_passive := h.free_passive
        free_unstopped := h.free_unstopped
        free_reason := h.free_reason
        running := hrun.trans hready.running
        pausedAt := by rw [hd, hi]; rfl }

/-! ### Runs of both engines -/

/-- The places of the lines that the next round executes. -/
def visit (e : Engine) : List Nat :=
  match e.plan with
  | .line _ => [e.index]
  | _ => []

/-- The places of the lines that a run executes, in order. -/
def visited (w : Waiting) (e : Engine) : List Nat :=
  match _h : e.round w with
  | .ended _ => e.visit
  | .again w' e' => e.visit ++ visited w' e'
termination_by e.rank
decreasing_by exact rank_lt_of_again _h

lemma visited_of_ended {r : Outcome × Engine} (h : e.round w = .ended r) :
    e.visited w = e.visit := by
  rw [visited]
  split
  · rfl
  · next h' =>
    rw [h] at h'
    cases h'

lemma visited_of_again (h : e.round w = .again w' e') :
    e.visited w = e.visit ++ e'.visited w' := by
  rw [visited]
  split
  · next h' =>
    rw [h] at h'
    cases h'
  · next h' =>
    rw [h] at h'
    cases h'
    rfl

lemma visit_congr (h : s.seen = f.seen) (hplan : f.plan = s.plan) : s.visit = f.visit := by
  have hi : s.index = f.index := congrArg (·.index) h
  unfold visit
  rw [hplan, hi]

/-- A run that pauses does a part of what the free run does. -/
def PausesOn (s f : Engine) : Prop :=
  ∃ i s' f', s.go .yield = (.paused i, s') ∧ Held s' f' ∧ f.go .yield = f'.go .yield ∧
    f.visited .yield = s.visited .yield ++ f'.visited .yield

/-- A run that does not pause ends as the free run does. -/
def EndsWith (s f : Engine) : Prop :=
  (∀ i, (s.go .yield).1 ≠ .paused i) ∧ (s.go .yield).1 = (f.go .yield).1 ∧
    (s.go .yield).2.seen = (f.go .yield).2.seen ∧ s.visited .yield = f.visited .yield

/-- **A run under the debugger is a part of the free run.** -/
theorem go_of_shadows (h : Shadows s f) : PausesOn s f ∨ EndsWith s f := by
  generalize hw : Waiting.yield = w
  induction w, s using go_induction generalizing f with
  | step w s ih =>
    subst hw
    by_cases hpause : ∃ reason, s.plan = .pause reason
    · -- the free run has not gone on
      obtain ⟨reason, hp⟩ := hpause
      obtain ⟨s', hr, hheld⟩ := round_of_pause h hp
      have hv : s.visit = [] := by
        unfold visit
        rw [hp]
      refine .inl ⟨s'.index, s', f, ?_, hheld, rfl, ?_⟩
      · rw [go_eq, hr]
      · rw [visited_of_ended hr, hv, List.nil_append]
    · have hgo : ∀ reason, s.plan ≠ .pause reason := fun reason hp => hpause ⟨reason, hp⟩
      obtain ⟨hplan, halike⟩ := round_alike h hgo
      have hv := visit_congr h.same hplan
      generalize hs : s.round .yield = rs at halike
      generalize hf : f.round .yield = rf at halike
      cases halike with
      | ended ho hseen hp =>
        refine .inr ⟨?_, ?_, ?_, ?_⟩
        · rw [go_eq, hs]
          exact hp
        · rw [go_eq, hs, go_eq, hf]
          exact ho
        · rw [go_eq, hs, go_eq, hf]
          exact hseen
        · rw [visited_of_ended hs, visited_of_ended hf, hv]
      | @again s' f' h' =>
        have hs' : s.go .yield = s'.go .yield := by rw [go_eq, hs]
        have hf' : f.go .yield = f'.go .yield := by rw [go_eq, hf]
        -- the rest of the run is alike, and the lines of this round come before it
        rcases ih .yield s' hs h' rfl with
          ⟨i, t, g, hgo', hheld, hfree, hvis⟩ | ⟨hp, ho, hseen, hvis⟩
        · refine .inl ⟨i, t, g, hs'.trans hgo', hheld, hf'.trans hfree, ?_⟩
          rw [visited_of_again hs, visited_of_again hf, hvis, hv, List.append_assoc]
        · refine .inr ⟨?_, ?_, ?_, ?_⟩
          · rw [hs']
            exact hp
          · rw [hs', hf', ho]
          · rw [hs', hf', hseen]
          · rw [visited_of_again hs, visited_of_again hf, hvis, hv]

end Courseware.Engine
