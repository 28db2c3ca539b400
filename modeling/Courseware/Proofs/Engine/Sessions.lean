import Courseware.Proofs.Engine.Recording

/-!
What a host does with an engine, one act after the other.

Between two acts, and while an act lets the program run, the record only grows. Somebody who
knows the variables at one time and hears of every change knows them at every later time, unless
they are forgotten in between.
-/

namespace Courseware.Engine

open Entry Event

variable {e s : Engine} {w : Waiting}

/-- What a host may do with an engine. -/
inductive Act where
  | drive (answers : List Debugger.Action)
  | resume
  | step
  | stop
  | reset
  | load (source : Text)
  | setVariable (name : Text) (v : Value)
  | perform (a : Debugger.Action)
  | subscribe (c : Channel) (react : Nat → Event → Reaction)
  | unsubscribe (id : Nat)
  | setInput (s : InputSource)
  | register (subsystem : Text) (c : RuntimeChannel)

/-- Acts by which the variables are forgotten. -/
def Act.forgets : Act → Bool
  | .reset => true
  | .load _ => true
  | _ => false

/-- The engine after an act. A text that is no program is not loaded. -/
def act (e : Engine) : Act → Engine
  | .drive answers => (e.drive answers).2
  | .resume => e.resume.2
  | .step => e.step.2
  | .stop => e.stop.2
  | .reset => e.reset
  | .load source =>
    match e.load source with
    | .ok e' => e'
    | .error _ => e
  | .setVariable name v => e.setVariable name v
  | .perform a => e.perform a
  | .subscribe c react => (e.subscribe c react).2
  | .unsubscribe id => (e.unsubscribe id).2
  | .setInput s => e.setInput s
  | .register subsystem c => e.register subsystem c

def after (e : Engine) (acts : List Act) : Engine := acts.foldl act e

/-- Where the rounds of an act begin, and how they take pauses. -/
def begins (e : Engine) : Act → Option (Waiting × Engine)
  | .drive answers => some (e.waiting answers, e.start)
  | .resume => if e.running then some (.yield, e.resumed) else none
  | .step => some (.yield, (if e.running then e else e.start).stepped)
  | _ => none

lemma begins_resume (e : Engine) :
    e.begins .resume = if e.running then some (.yield, e.resumed) else none := rfl

lemma act_of_begins {a : Act} (h : e.begins a = some (w, s)) : e.act a = (s.go w).2 := by
  cases a with
  | drive answers =>
    cases h
    exact congrArg Prod.snd (e.drive_eq answers)
  | step =>
    cases h
    rfl
  | resume =>
    change e.resume.2 = (s.go w).2
    rw [begins_resume] at h
    rw [resume_eq]
    split at h
    · next hr =>
      cases h
      rw [if_pos hr]
    · cases h
  | _ => cases h

lemma act_load_of_ok {source : Text} {e' : Engine} (h : e.load source = .ok e') :
    e.act (.load source) = e' := by
  rw [act, h]

lemma act_load_of_error {source : Text} {error : LoadError} (h : e.load source = .error error) :
    e.act (.load source) = e := by
  rw [act, h]

/-- Nothing is resumed where there are no rounds. -/
lemma act_resume_of_none (h : e.begins .resume = none) : e.act .resume = e := by
  change e.resume.2 = e
  rw [begins_resume] at h
  rw [resume_eq]
  split at h
  · cases h
  · next hr => rw [if_neg hr]

/-- Another program begins with everything forgotten. -/
lemma reset_of_load {source : Text} {e' : Engine} (h : e.load source = .ok e') :
    ∃ p, Program.load source = .ok p ∧ e' = { e with program := p }.reset := by
  unfold load at h
  cases hp : Program.load source with
  | error error =>
    rw [hp] at h
    cases h
  | ok p =>
    rw [hp] at h
    cases h
    exact ⟨p, rfl, rfl⟩

/-- The settings stay the same. -/
lemma settings_begins {a : Act} (h : e.begins a = some (w, s)) : s.settings = e.settings := by
  cases a with
  | drive answers =>
    cases h
    rfl
  | step =>
    cases h
    split <;> rfl
  | resume =>
    rw [begins_resume] at h
    split at h
    · cases h
      exact e.resumed_same.1
    · cases h
  | _ => cases h

lemma settings_act (e : Engine) (a : Act) : (e.act a).settings = e.settings := by
  cases hb : e.begins a with
  | some b =>
    rw [act_of_begins hb, settings_of_runs (runs_go _ _), settings_begins hb]
  | none =>
    cases a with
    | drive answers => cases hb
    | step => cases hb
    | resume => rw [act_resume_of_none hb]
    | load source =>
      cases hload : e.load source with
      | ok e' =>
        obtain ⟨p, -, rfl⟩ := reset_of_load hload
        rw [act_load_of_ok hload]
        rfl
      | error error => rw [act_load_of_error hload]
    | stop =>
      change e.stop.2.settings = e.settings
      unfold stop
      dsimp only
      split <;> rfl
    | _ => rfl

lemma settings_after (e : Engine) (acts : List Act) : (e.after acts).settings = e.settings := by
  induction acts generalizing e with
  | nil => rfl
  | cons a acts ih => exact (ih (e.act a)).trans (e.settings_act a)

/-- The engines of a session: those that the host gets back, and those between the rounds of
an act. -/
inductive Arises (e : Engine) : Engine → Prop where
  | after (acts : List Act) : Arises e (e.after acts)
  | during (acts : List Act) {a : Act} {w w' : Waiting} {s s' : Engine}
      (h : (e.after acts).begins a = some (w, s)) (hr : Reaches w s w' s') : Arises e s'

/-! ### What a session records -/

lemma recorded_resumed (e : Engine) : Recorded e e.resumed := by
  unfold resumed
  split
  · exact .none rfl rfl
  · exact .refl e

lemma recorded_begins {a : Act} (h : e.begins a = some (w, s)) : Recorded e s := by
  cases a with
  | drive answers =>
    cases h
    exact recorded_start e
  | step =>
    cases h
    have hstepped : ∀ t : Engine, Recorded t t.stepped := fun _ => .none rfl rfl
    split
    · exact hstepped e
    · exact (recorded_start e).trans (hstepped e.start)
  | resume =>
    rw [begins_resume] at h
    split at h
    · cases h
      exact recorded_resumed e
    · cases h
  | _ => cases h

lemma recorded_stop (e : Engine) : Recorded e e.stop.2 := by
  have hasked : ∀ d : Debugger, Recorded e (e.setDebugger d) := fun _ => .none rfl rfl
  unfold stop
  dsimp only
  split
  · exact (hasked _).trans (recorded_finishStopped _)
  · exact hasked _

/-- **An act records every change of a variable**, unless it makes the engine forget. -/
theorem recorded_act {a : Act} (h : a.forgets = false) (e : Engine) : Recorded e (e.act a) := by
  cases hb : e.begins a with
  | some b =>
    rw [act_of_begins hb]
    exact (recorded_begins hb).trans (recorded_go _ _)
  | none =>
    cases a with
    | drive answers => cases hb
    | step => cases hb
    | resume =>
      rw [act_resume_of_none hb]
      exact .refl e
    | stop => exact recorded_stop e
    | reset => cases h
    | load source => cases h
    | setVariable name v =>
      obtain ⟨receivers, hr⟩ := Records.setVariable e.machine name v
      exact ⟨_, hr⟩
    | perform a => exact .none rfl rfl
    | subscribe c react => exact .none rfl rfl
    | unsubscribe id => exact .none rfl rfl
    | setInput s => exact .none rfl rfl
    | register subsystem c => exact .none rfl rfl

lemma recorded_after {acts : List Act} (h : ∀ a ∈ acts, a.forgets = false) (e : Engine) :
    Recorded e (e.after acts) := by
  induction acts generalizing e with
  | nil => exact .refl e
  | cons a acts ih =>
    have hact := recorded_act (h a List.mem_cons_self) e
    exact hact.trans (ih (fun b hb => h b (List.mem_cons_of_mem a hb)) (e.act a))

/-- **The events tell the variables.** Whatever a host does with an engine short of a reset or
another program, the changes of variables that are told in the meantime, made one after the
other, lead from the variables at the beginning to those at the end; and every name is told in
canonical form. -/
theorem vars_after_eq_replay {acts : List Act} (h : ∀ a ∈ acts, a.forgets = false)
    (e : Engine) :
    ∃ es, (e.after acts).machine.log.toList = e.machine.log.toList ++ es ∧
      (e.after acts).machine.vars = e.machine.vars.replay (changes (events es)) ∧
      ∀ name v, .variableChanged name v ∈ events es → Text.canonical name = name := by
  obtain ⟨es, hr⟩ := recorded_after h e
  refine ⟨es, hr.log, hr.vars, fun name v hev => ?_⟩
  exact hr.named (name, v) (List.mem_filterMap.2 ⟨_, hev, rfl⟩)

/-- A session with a program that fails between two assignments. -/
theorem vars_after_eq_replay_session :
    ∃ (e : Engine) (acts : List Act),
      (new default {}).load "U:X=1\nFROB\nSWAP x, y".toList = .ok e ∧
      acts = [.setVariable " y ".toList (.integer 1), .drive [], .step, .resume, .stop] ∧
      (∀ a ∈ acts, a.forgets = false) ∧
      (e.after acts).machine.vars.keys = ["X".toList, "Y".toList] ∧
      ∃ es, (e.after acts).machine.log.toList = e.machine.log.toList ++ es ∧
        (e.after acts).machine.vars = e.machine.vars.replay (changes (events es)) ∧
        ∀ name v, .variableChanged name v ∈ events es → Text.canonical name = name := by
  have hacts : ∀ a ∈ [Act.setVariable " y ".toList (.integer 1), .drive [], .step, .resume, .stop],
      a.forgets = false := by
    intro a ha
    simp only [List.mem_cons, List.not_mem_nil, or_false] at ha
    rcases ha with rfl | rfl | rfl | rfl | rfl <;> rfl
  exact ⟨_, _, rfl, rfl, hacts, by decide +kernel, vars_after_eq_replay hacts _⟩

end Courseware.Engine
