import Courseware.Proofs.Engine.Interleaving
import Mathlib.Tactic.Lemma

/-!
A request to stop is never lost.

Only the engine consumes a request, and it does so where it ends the run. So from a request on
the loop goes one way: it comes to its top, or to a signal, with the request still there. At most
the line for which the request came too late is executed.
-/

namespace Courseware

open Debugger (Action)

namespace Debugger

variable {d : Debugger} {a : Action} {as : List Action}

/-- No action withdraws a request. -/
lemma stopRequested_perform (h : d.stopRequested = true) :
    (d.perform a).stopRequested = true := by
  cases a with
  | toggle i =>
    change (d.toggle i).stopRequested = true
    unfold toggle
    split <;> exact h
  | step =>
    change d.step.stopRequested = true
    unfold step
    split <;> exact h
  | resume =>
    change d.resume.stopRequested = true
    unfold resume
    split <;> exact h
  | stop => rfl
  | _ => exact h

lemma stopRequested_performAll (h : d.stopRequested = true ∨ .stop ∈ as) :
    (d.performAll as).stopRequested = true := by
  induction as generalizing d with
  | nil =>
    rcases h with h | h
    · exact h
    · cases h
  | cons a as ih =>
    refine ih (d := d.perform a) ?_
    rcases h with h | h
    · exact .inl (stopRequested_perform h)
    · rcases List.mem_cons.1 h with rfl | h
      · exact .inl rfl
      · exact .inr h

/-- A request to stop comes before any signal. -/
lemma poll_of_stopRequested (h : d.stopRequested = true) :
    d.poll = some (.stop, { d with pausedAt := none }) := if_pos h

end Debugger

namespace Interleaving

variable {s s' t : Process} {e : Engine} {μ : Move} {μs : List Move} {ph ph' : Phase} {o : Outcome}

def Phase.isEnded : Phase → Bool
  | .ended _ => true
  | _ => false

/-! ### The engine runs until it has ended -/

/-- The engine runs, unless the run has ended. -/
def Alive (s : Process) : Prop := s.phase.isEnded = false → s.engine.running = true

lemma running_runLine {w w' : Waiting} {l : Line} {e' : Engine}
    (h : e.runLine w l = .again w' e') : e'.running = e.running := by
  rw [Engine.runLine_eq] at h
  rw [(of_conclude_again h).2, Engine.execute_snd]

lemma Alive.moves (hs : Alive s) (h : Moves s μ s') : Alive s' := by
  cases h with
  | @host ph e a =>
    intro hph
    -- a handle cannot end the run
    refine hs ?_
    cases ph with
    | ended o => cases hph
    | _ => rfl
  | @run e l as =>
    cases hr : e.runLine (.block []) l with
    | ended r => exact fun hph => by cases hph
    | again w' e' => exact fun _ => (running_runLine hr).trans (hs rfl)
  | finish h as => exact fun hph => by cases hph
  | stop as => exact fun hph => by cases hph
  | @announce e reason as =>
    refine fun _ => Eq.trans ?_ (hs rfl)
    cases reason <;> rfl
  | _ => exact fun _ => hs rfl

lemma Alive.course (hs : Alive s) (h : Course s μs t) : Alive t := by
  induction h with
  | nil => exact hs
  | cons hm _ ih => exact ih (hs.moves hm)

/-! ### What becomes of a run that is to be stopped -/

/-- The program came to its end by itself: it completed, or it halted at an error. -/
def OwnEnd (o : Outcome) : Prop := (∃ n, o = .completed n) ∨ ∃ error, o = .halted error

lemma ownEnd_conclude {w : Waiting} {i : Nat} {x : Except ExecError Directive}
    {r : Outcome × Engine} (h : Engine.conclude w i x e = .ended r) : OwnEnd r.1 := by
  unfold Engine.conclude at h
  split at h
  · cases h
  · cases h
  · cases h
    exact .inl ⟨_, rfl⟩
  · cases h
    exact .inl ⟨_, rfl⟩
  · split at h
    · cases h
      exact .inr ⟨_, rfl⟩
    · cases h

lemma ownEnd_runLine {w : Waiting} {l : Line} {r : Outcome × Engine}
    (h : e.runLine w l = .ended r) : OwnEnd r.1 := by
  rw [Engine.runLine_eq] at h
  exact ownEnd_conclude h

lemma ownEnd_ending? {r : Outcome × Engine} (hr : e.running = true) (h : ending? e = some r) :
    OwnEnd r.1 := by
  unfold ending? at h
  split at h
  · next hp => exact absurd hp (Engine.plan_ne_idle hr)
  · cases h
    exact .inr ⟨_, rfl⟩
  · cases h
    exact .inl ⟨_, rfl⟩
  · cases h

/-- A stop is requested that the engine has not seen yet, or it is about to end the run for it,
or the run has ended. -/
def Doomed (s : Process) : Prop :=
  match s.phase with
  | .asleep => False
  | .stopping => True
  | .ended _ => True
  | _ => s.engine.debugger.stopRequested = true

/-- How the loop goes on once a stop is requested. -/
inductive Descends : Phase → Move → Phase → Prop where
  | host (ph : Phase) (a : Action) : Descends ph (.host a) ph
  | start (as : List Action) : Descends .starting (.tell as) .top
  | check : Descends .top (.check true) .stopping
  | line (l : Line) : Descends .checked .look (.line l)
  | pause (reason : PauseReason) : Descends .checked .look (.pausing reason)
  | finish (as : List Action) {o : Outcome} (h : OwnEnd o) :
      Descends .checked (.finish as) (.ended o)
  | run (l : Line) (as : List Action) : Descends (.line l) (.line as) .top
  | last (l : Line) (as : List Action) {o : Outcome} (h : OwnEnd o) :
      Descends (.line l) (.line as) (.ended o)
  | arrest (reason : PauseReason) : Descends (.pausing reason) .pause (.announcing reason)
  | announce (reason : PauseReason) (as : List Action) :
      Descends (.announcing reason) (.tell as) .waiting
  | signal : Descends .waiting (.poll (some .stop)) (.signalled .stop)
  | obey : Descends (.signalled .stop) .obey .stopping
  | goOn (s : Signal) : Descends (.signalled s) .obey .top
  | stop (as : List Action) : Descends .stopping (.finish as) (.ended .stopped)

/-- **A request stays until the run ends for it.** -/
theorem descends_of_moves (ha : Alive s) (hd : Doomed s) (h : Moves s μ s') :
    Descends s.phase μ s'.phase ∧ Doomed s' := by
  cases h with
  | @host ph e a =>
    -- a handle may do what it likes, the request stays
    have hstays : e.debugger.stopRequested = true → (e.perform a).debugger.stopRequested = true :=
      Debugger.stopRequested_perform
    cases ph with
    | asleep => exact hd.elim
    | stopping => exact ⟨.host _ a, trivial⟩
    | ended o => exact ⟨.host _ a, trivial⟩
    | _ => exact ⟨.host _ a, hstays hd⟩
  | start as => exact ⟨.start as, Debugger.stopRequested_performAll (.inl hd)⟩
  | @check e =>
    -- the check at the top of the loop finds the request
    have hs : e.debugger.stopRequested = true := hd
    rw [hs]
    exact ⟨.check, trivial⟩
  | @line e l h => exact ⟨.line l, hd⟩
  | @pause e reason h => exact ⟨.pause reason, hd⟩
  | @finish e r h as => exact ⟨.finish as (ownEnd_ending? (ha rfl) h), trivial⟩
  | @run e l as =>
    cases hr : e.runLine (.block []) l with
    | ended r => exact ⟨.last l as (ownEnd_runLine hr), trivial⟩
    | again w' e' => exact ⟨.run l as, Debugger.stopRequested_performAll (.inl hd)⟩
  | @arrest e reason => exact ⟨.arrest reason, hd⟩
  | @announce e reason as =>
    exact ⟨.announce reason as, Debugger.stopRequested_performAll (.inl hd)⟩
  | @signal e s d h =>
    cases (Debugger.poll_of_stopRequested hd).symm.trans h
    exact ⟨.signal, hd⟩
  -- an engine with a request does not fall asleep
  | sleep h => cases (Debugger.poll_of_stopRequested hd).symm.trans h
  | wake => exact hd.elim
  | obeyStop => exact ⟨.obey, trivial⟩
  | obeyStep => exact ⟨.goOn .step, hd⟩
  | obeyResume => exact ⟨.goOn .resume, hd⟩
  | stop as => exact ⟨.stop as, trivial⟩

/-- How many moves an engine can still make if it is to be stopped. -/
def Phase.left : Phase → Nat
  | .starting => 3
  | .top => 2
  | .checked => 7
  | .line _ => 3
  | .pausing _ => 6
  | .announcing _ => 5
  | .waiting => 4
  | .asleep => 5
  | .signalled _ => 3
  | .stopping => 1
  | .ended _ => 0

lemma Phase.left_le (ph : Phase) : ph.left ≤ 7 := by
  cases ph <;> simp [left]

/-- The request came after the engine had looked for one, so a line may still be executed. -/
def Phase.isInFlight : Phase → Bool
  | .checked => true
  | .line _ => true
  | _ => false

namespace Descends

lemma left_le (h : Descends ph μ ph') :
    (if μ.isEngine then 1 else 0) + ph'.left ≤ ph.left := by
  cases h <;> simp [Phase.left, Move.isEngine]

/-- Looking for a request is behind a line that may still be executed. -/
lemma of_isInFlight (h : Descends ph μ ph') (hph' : ph'.isInFlight = true) :
    ph.isInFlight = true ∧ ∀ found, μ ≠ .check found := by
  cases h with
  | host ph a => exact ⟨hph', fun _ h => by cases h⟩
  | line l => exact ⟨rfl, fun _ h => by cases h⟩
  | _ => cases hph'

lemma of_line {as : List Action} (h : Descends ph (.line as) ph') :
    ph.isInFlight = true ∧ ph'.isInFlight = false := by
  cases h with
  | run l as => exact ⟨rfl, rfl⟩
  | last l as h => exact ⟨rfl, rfl⟩

lemma of_isEnded (h : Descends ph μ ph') (hph : ph.isEnded = true) :
    ph' = ph ∧ ∃ a, μ = .host a := by
  cases h with
  | host ph a => exact ⟨rfl, a, rfl⟩
  | _ => cases hph

lemma to_ended (h : Descends ph μ (.ended o)) (hph : ph.isEnded = false) :
    o = .stopped ∨ ph.isInFlight = true ∧ (∀ found, μ ≠ .check found) ∧ OwnEnd o := by
  cases h with
  | host ph a => cases hph
  | finish as h => exact .inr ⟨rfl, fun _ h => (by cases h), h⟩
  | last l as h => exact .inr ⟨rfl, fun _ h => (by cases h), h⟩
  | stop as => exact .inl rfl

end Descends

inductive Descent : Phase → List Move → Phase → Prop where
  | nil {ph : Phase} : Descent ph [] ph
  | cons {ph ph' ph'' : Phase} {μ : Move} {μs : List Move} (h : Descends ph μ ph')
      (hc : Descent ph' μs ph'') : Descent ph (μ :: μs) ph''

lemma descent_of_course (ha : Alive s) (hd : Doomed s) (h : Course s μs t) :
    Descent s.phase μs t.phase ∧ Doomed t := by
  induction h with
  | nil => exact ⟨.nil, hd⟩
  | cons hm _ ih =>
    obtain ⟨hstep, hd'⟩ := descends_of_moves ha hd hm
    obtain ⟨hrest, ht⟩ := ih (ha.moves hm) hd'
    exact ⟨.cons hstep hrest, ht⟩

namespace Descent

lemma countP_add_le (h : Descent ph μs ph') :
    μs.countP Move.isEngine + ph'.left ≤ ph.left := by
  induction h with
  | nil => simp
  | cons hstep _ ih =>
    have hle := hstep.left_le
    rw [List.countP_cons]
    omega

lemma poll_eq (h : Descent ph μs ph') {found : Option Signal} (hm : .poll found ∈ μs) :
    found = some .stop := by
  induction h with
  | nil => cases hm
  | cons hstep _ ih =>
    rcases List.mem_cons.1 hm with rfl | hm
    · cases hstep
      rfl
    · exact ih hm

lemma no_line (h : Descent ph μs ph') (hph : ph.isInFlight = false) (as : List Action) :
    .line as ∉ μs := by
  induction h with
  | nil => exact List.not_mem_nil
  | @cons ph₁ ph₂ ph₃ μ μs hstep _ ih =>
    intro hm
    rcases List.mem_cons.1 hm with rfl | hm
    · rw [hstep.of_line.1] at hph
      cases hph
    · refine ih ?_ hm
      cases hph₂ : ph₂.isInFlight with
      | false => rfl
      | true =>
        rw [(hstep.of_isInFlight hph₂).1] at hph
        cases hph

/-- The only line that is still executed is one for which the request came too late. -/
lemma of_line {before after : List Move} {as : List Action} (h : Descent ph μs ph')
    (heq : μs = before ++ .line as :: after) :
    (∀ found, .check found ∉ before) ∧ ∀ as', .line as' ∉ after := by
  induction h generalizing before with
  | nil => simp at heq
  | @cons ph₁ ph₂ ph₃ μ μs hstep hrest ih =>
    cases before with
    | nil =>
      cases heq
      -- the line itself: after it no line is in flight
      exact ⟨fun _ => List.not_mem_nil, hrest.no_line hstep.of_line.2⟩
    | cons ν before =>
      obtain ⟨rfl, hμs⟩ := List.cons.inj heq
      obtain ⟨hbefore, hafter⟩ := ih hμs
      -- the line is still to come, so it is in flight
      have hph₂ : ph₂.isInFlight = true := by
        cases hph₂ : ph₂.isInFlight with
        | true => rfl
        | false =>
          have hmem : .line as ∈ μs := by
            rw [hμs]
            exact List.mem_append_right _ List.mem_cons_self
          exact absurd hmem (hrest.no_line hph₂ as)
      refine ⟨fun found hm => ?_, hafter⟩
      rcases List.mem_cons.1 hm with hm | hm
      · exact (hstep.of_isInFlight hph₂).2 found hm.symm
      · exact hbefore found hm

lemma of_isEnded (h : Descent ph μs ph') (hph : ph.isEnded = true) :
    ph' = ph ∧ ∀ μ ∈ μs, ∃ a, μ = .host a := by
  induction h with
  | nil => exact ⟨rfl, fun _ hm => by cases hm⟩
  | cons hstep _ ih =>
    obtain ⟨rfl, ha⟩ := hstep.of_isEnded hph
    obtain ⟨rfl, hrest⟩ := ih hph
    exact ⟨rfl, List.forall_mem_cons.2 ⟨ha, hrest⟩⟩

/-- How the run ends. -/
lemma outcome (h : Descent ph μs ph') (hph : ph.isEnded = false) (ho : ph' = .ended o) :
    o = .stopped ∨ ph.isInFlight = true ∧ (∀ found, .check found ∉ μs) ∧ OwnEnd o := by
  induction h with
  | nil =>
    rw [ho] at hph
    cases hph
  | @cons ph₁ ph₂ ph₃ μ μs hstep hrest ih =>
    cases hph₂ : ph₂.isEnded with
    | true =>
      -- the run ends here, and after that only handles act
      obtain ⟨rfl, hhosts⟩ := hrest.of_isEnded hph₂
      subst ho
      refine (hstep.to_ended hph).imp_right fun ⟨hflight, hcheck, hown⟩ => ?_
      refine ⟨hflight, fun found hm => ?_, hown⟩
      rcases List.mem_cons.1 hm with hm | hm
      · exact hcheck found hm.symm
      · obtain ⟨a, ha⟩ := hhosts _ hm
        cases ha
    | false =>
      refine (ih hph₂ ho).imp_right fun ⟨hflight, hcheck, hown⟩ => ?_
      obtain ⟨hflight₁, hμ⟩ := hstep.of_isInFlight hflight
      refine ⟨hflight₁, fun found hm => ?_, hown⟩
      rcases List.mem_cons.1 hm with hm | hm
      · exact hμ found hm.symm
      · exact hcheck found hm

end Descent

lemma doomed_of_stop (h : Moves s μ s') (hstop : .stop ∈ μ.actions) : Doomed s' := by
  cases h with
  | @host ph e a =>
    -- the stop of a handle
    obtain rfl := List.mem_singleton.1 hstop
    cases ph with
    | stopping => exact trivial
    | ended o => exact trivial
    | _ => exact rfl
  -- stops in the course of an event or a line
  | start as => exact Debugger.stopRequested_performAll (.inr hstop)
  | announce as => exact Debugger.stopRequested_performAll (.inr hstop)
  | @run e l as =>
    cases hr : e.runLine (.block []) l with
    | ended r => exact trivial
    | again w' e' => exact Debugger.stopRequested_performAll (.inr hstop)
  | finish h as => exact trivial
  | stop as => exact trivial
  | _ => cases hstop

/-- How a run can end at all. -/
lemma ended_of_moves (ha : Alive s) (hs : s.phase.isEnded = false) (h : Moves s μ s')
    (ho : s'.phase = .ended o) : o = .stopped ∨ OwnEnd o := by
  cases h with
  | @host ph e a =>
    cases ph with
    | ended o => cases hs
    | asleep =>
      change (if e.debugger.wakes a then Phase.waiting else .asleep) = .ended o at ho
      split at ho <;> cases ho
    | _ => cases ho
  | @check e =>
    change (if e.debugger.stopRequested then Phase.stopping else .checked) = .ended o at ho
    split at ho <;> cases ho
  | @finish e r h as =>
    cases ho
    exact .inr (ownEnd_ending? (ha rfl) h)
  | @run e l as =>
    cases hr : e.runLine (.block []) l with
    | ended r =>
      rw [hr] at ho
      cases ho
      exact .inr (ownEnd_runLine hr)
    | again w' e' =>
      rw [hr] at ho
      cases ho
  | stop as =>
    cases ho
    exact .inl rfl
  | _ => cases ho

/-- The engine can always make a move, unless it sleeps or the run has ended. -/
lemma exists_engine_move (hs : s.phase.isEnded = false) (hsleep : s.phase ≠ .asleep) :
    ∃ μ s', μ.isEngine = true ∧ Moves s μ s' := by
  obtain ⟨ph, e⟩ := s
  cases ph with
  | starting => exact ⟨_, _, rfl, .start []⟩
  | top => exact ⟨_, _, rfl, .check⟩
  | checked =>
    cases hp : e.heard.plan with
    -- the request has been taken by the check
    | stop => cases plan_eq_stop_iff.1 hp
    | line l => exact ⟨_, _, rfl, .line hp⟩
    | pause reason => exact ⟨_, _, rfl, .pause hp⟩
    | idle => exact ⟨_, _, rfl, .finish (by rw [ending?, hp]) []⟩
    | exhausted => exact ⟨_, _, rfl, .finish (by rw [ending?, hp]) []⟩
    | finish => exact ⟨_, _, rfl, .finish (by rw [ending?, hp]) []⟩
  | line l => exact ⟨_, _, rfl, .run []⟩
  | pausing reason => exact ⟨_, _, rfl, .arrest⟩
  | announcing reason => exact ⟨_, _, rfl, .announce []⟩
  | waiting =>
    cases hp : e.debugger.poll with
    | none => exact ⟨_, _, rfl, .sleep hp⟩
    | some x => exact ⟨_, _, rfl, .signal hp⟩
  | asleep => exact absurd rfl hsleep
  | signalled s =>
    cases s with
    | stop => exact ⟨_, _, rfl, .obeyStop⟩
    | step => exact ⟨_, _, rfl, .obeyStep⟩
    | resume => exact ⟨_, _, rfl, .obeyResume⟩
  | stopping => exact ⟨_, _, rfl, .stop []⟩
  | ended o => cases hs

/-- The moves `after` a request to stop, up to `t`, do what it asks for. -/
structure Heeds (after : List Move) (t : Process) : Prop where
  /-- At most one line is executed, and the engine had looked for a request before it. -/
  lines : ∀ before as rest, after = before ++ .line as :: rest →
    (∀ found, .check found ∉ before) ∧ ∀ as', .line as' ∉ rest
  /-- A pause ends with the signal to stop, whatever else has been signalled. -/
  polls : ∀ found, .poll found ∈ after → found = some .stop
  /-- The engine does not sleep any more, so it goes on, and it does not go on for long. -/
  awake : t.phase ≠ .asleep
  goes : t.phase.isEnded = false → ∃ μ t', μ.isEngine = true ∧ Moves t μ t'
  few : after.countP Move.isEngine ≤ 7
  /-- The run ends as stopped, unless the program came to its own end before the engine looked
  for a request again. -/
  outcome : ∀ o, t.phase = .ended o → o = .stopped ∨ (∀ found, .check found ∉ after) ∧
    ((∃ n, o = .completed n) ∨ ∃ error, o = .halted error)

/-- **A request to stop is never lost.** Whenever a stop is requested in a run, by a handle or in
the course of an event or a line, and however the moves of handles and engine follow each other
then, the request is heeded. -/
theorem stop_is_heeded {before after : List Move} (hs : Course (begun e) before s)
    (hrun : s.phase.isEnded = false) (hm : Moves s μ s') (hstop : .stop ∈ μ.actions)
    (ht : Course s' after t) : Heeds after t := by
  have ha : Alive s := Alive.course (fun _ => rfl) hs
  obtain ⟨hdescent, hdoomed⟩ := descent_of_course (ha.moves hm) (doomed_of_stop hm hstop) ht
  have hawake : t.phase ≠ .asleep := by
    intro hph
    unfold Doomed at hdoomed
    rw [hph] at hdoomed
    exact hdoomed
  refine ⟨fun _ _ _ => hdescent.of_line, fun _ => hdescent.poll_eq, hawake,
    fun h => exists_engine_move h hawake, ?_, fun o ho => ?_⟩
  · have hcount := hdescent.countP_add_le
    have hleft := s'.phase.left_le
    omega
  · cases hs' : s'.phase.isEnded with
    | true =>
      -- the run has ended with the request, and only handles act after that
      obtain ⟨hph, hhosts⟩ := hdescent.of_isEnded hs'
      refine (ended_of_moves ha hrun hm (hph.symm.trans ho)).imp_right fun hown => ?_
      refine ⟨fun found hmem => ?_, hown⟩
      obtain ⟨a, h⟩ := hhosts _ hmem
      cases h
    | false =>
      exact (hdescent.outcome hs' ho).imp_right fun ⟨_, hcheck, hown⟩ => ⟨hcheck, hown⟩

/-- A stop that is requested at a breakpoint, and a signal to resume that comes after it. -/
theorem stop_is_heeded_before_resume :
    ∃ (e : Engine) (before : List Move) (s s' t : Process),
      (Engine.new default {}).load "T:one".toList = .ok e ∧
      Course (begun (e.perform (.toggle 0))) before s ∧ s.phase = .asleep ∧
      Moves s (.host .stop) s' ∧
      Course s' [.host .resume, .poll (some .stop), .obey, .finish []] t ∧
      t.phase = .ended .stopped ∧
      Heeds [.host .resume, .poll (some .stop), .obey, .finish []] t := by
  obtain ⟨e, hload, before, s, hs, hph, s', hm, t, ht, ho⟩ : ∃ e,
      (Engine.new default {}).load "T:one".toList = .ok e ∧ ∃ before s,
      Course (begun (e.perform (.toggle 0))) before s ∧ s.phase = .asleep ∧ ∃ s',
      Moves s (.host .stop) s' ∧ ∃ t,
      Course s' [.host .resume, .poll (some .stop), .obey, .finish []] t ∧
      t.phase = .ended .stopped := by
    exact ⟨_, rfl, _, _,
      .cons (.start []) (.cons .check (.cons (.pause rfl) (.cons .arrest
        (.cons (.announce []) (.single (.sleep rfl)))))), rfl,
      _, .host .stop, _,
      .cons (.host .resume) (.cons (.signal rfl) (.cons .obeyStop (.single (.stop [])))), rfl⟩
  have hrun : s.phase.isEnded = false := by
    rw [hph]
    rfl
  exact ⟨e, before, s, s', t, hload, hs, hph, hm, ht, ho,
    stop_is_heeded hs hrun hm List.mem_cons_self ht⟩

end Interleaving

end Courseware
