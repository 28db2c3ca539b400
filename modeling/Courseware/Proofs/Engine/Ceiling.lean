import Courseware.Proofs.Command.Depth
import Courseware.Proofs.Engine.Rounds
import Courseware.Proofs.Logo.Repetition

/-!
The limit of commands bounds everything that a host can let a program do.

Whatever the host has done with a loaded program before, the next call comes back, the count of
commands stays within the limit at every moment of it, and once a command is refused for the
limit, at whatever depth, the program ends for this reason.
-/

namespace Courseware.Engine

open Exec

variable {w w' : Waiting} {e e' s : Engine} {line : Line}

/-- `Inside s env y n` says that in a run from `s`, the computation `y` is run from the machine
`n` as a part of some line, which is executed in the environment `env`. -/
def Inside {α : Type} (s : Engine) (env : Environment) (y : Exec α) (n : Machine) : Prop :=
  ∃ w e line, Reaches .yield s w e ∧ e.plan = .line line ∧ env = e.counted.environment ∧
    Part env (Courseware.execute e.settings.maxCallDepth line.text) e.counted.machine y n

/-- The run from `s` that has the result `r` is bounded by `limit` commands. -/
structure Bounded (limit : Nat) (s : Engine) (r : Outcome × Engine) : Prop where
  /-- The rounds come to an end. -/
  returns : Runs .yield s r
  /-- Lines are executed as if calls had more room. -/
  room : ∀ {w e line}, Reaches .yield s w e → e.plan = .line line → ∀ k,
    Courseware.execute (e.settings.maxCallDepth + k) line.text e.counted.environment
      e.counted.machine = e.counted.effect line.text
  /-- A repetition takes at most one pass more than there are commands left. -/
  passes : ∀ {env n enter body left i}, (∀ t, Composed (enter t)) →
    Inside s env (Logo.repeatFrom (Logo.pass enter body) left i) n → ∀ k, limit - n.used < k →
      Logo.repeatFrom (Logo.pass enter body) (min left k) i env n =
        Logo.repeatFrom (Logo.pass enter body) left i env n
  /-- The count is within the limit between lines. -/
  between : ∀ {w e}, Reaches .yield s w e → e.machine.used ≤ limit
  /-- The count is within the limit inside lines. -/
  inside : ∀ {α : Type} {env n} {y : Exec α}, Inside s env y n →
    n.used ≤ limit ∧ (final (y env n)).used ≤ limit
  /-- The count is within the limit at the end. -/
  after : r.2.machine.used ≤ limit
  /-- A program that ran too long has used the commands that it may. -/
  spent : ∀ {l}, r.1 = .halted (.runaway l) → l = limit ∧ r.2.machine.used = limit
  /-- A command that is refused for the limit ends the program. -/
  surfaces : ∀ {α : Type} {env n n'} {y : Exec α} {l}, Inside s env y n →
    y env n = .error (.runaway l) n' → r.1 = .halted (.runaway l)

lemma Inside.limit {α : Type} {env : Environment} {y : Exec α} {n : Machine}
    (h : Inside s env y n) : env.settings.maxCommands = s.settings.maxCommands := by
  obtain ⟨w, e, line, hr, -, rfl, -⟩ := h
  exact congrArg Settings.maxCommands hr.settings

lemma Inside.used_le {α : Type} {env : Environment} {y : Exec α} {n : Machine}
    (h : Inside s env y n) : n.used ≤ s.settings.maxCommands := by
  have hlimit := h.limit
  obtain ⟨w, e, line, hr, hp, rfl, hpart⟩ := h
  rw [← hlimit]
  exact hpart.used_le_limit (ready_of_plan_line hp).1.used_lt

lemma used_le_of_runs {r : Outcome × Engine} (h : Runs w s r)
    (hs : s.machine.used ≤ s.settings.maxCommands) :
    r.2.machine.used ≤ s.settings.maxCommands := by
  induction h with
  | @ended w e r h =>
    have hu := used_round_le w hs
    rw [h] at hu
    exact hu
  | again h _ ih =>
    rw [← settings_of_again h]
    exact ih (used_of_again h hs)

lemma pause_not_halted {reason : PauseReason} {error : ExecError} :
    e.pause w reason ≠ .ended (.halted error, e') := by
  intro h
  cases w with
  | yield =>
    rw [pause_yield] at h
    cases h
  | block answers =>
    rcases hd : (e.paused reason).debugger.await answers with ⟨signal, left, d⟩
    rw [pause_block hd] at h
    cases signal <;> cases h

lemma le_used_of_plan (h : e.plan = .exhausted) : e.settings.maxCommands ≤ e.machine.used := by
  unfold plan at h
  split at h
  · cases h
  split at h
  · cases h
  split at h
  · assumption
  split at h
  · cases h
  split at h
  · cases h
  split at h <;> cases h

lemma error_of_conclude {i : Nat} {x : Except ExecError Directive} {error : ExecError}
    (h : conclude w i x e = .ended (.halted error, e')) : x = .error error := by
  unfold conclude at h
  split at h
  · cases h
  · cases h
  · cases h
  · cases h
  · split at h <;> cases h
    rfl

/-- A round ends the program for running too long only at the limit. -/
lemma limit_of_round {l : Nat} (h : e.round w = .ended (.halted (.runaway l), e')) :
    l = e.settings.maxCommands ∧ e.settings.maxCommands ≤ e'.machine.used := by
  rw [round_eq] at h
  cases hp : e.plan with
  | stop => rw [hp] at h; cases h
  | idle => rw [hp] at h; cases h
  | finish => rw [hp] at h; cases h
  | pause reason =>
    rw [hp] at h
    exact absurd h pause_not_halted
  | exhausted =>
    -- the limit was reached before the round
    have hle := le_used_of_plan hp
    rw [hp] at h
    cases h
    exact ⟨rfl, hle⟩
  | line line =>
    rw [hp] at h
    dsimp only at h
    -- it is reached by a command of the line
    have hx := error_of_conclude h
    have hu := (engine_conclude w e.index (e.counted.execute line.text).1
      (e.counted.execute line.text).2).2
    rw [h] at hu
    have hu' : e'.machine.used = (e.counted.execute line.text).2.machine.used := hu
    rw [hu']
    cases hr : e.counted.effect line.text with
    | ok d m =>
      rw [execute_of_ok hr] at hx
      cases hx
    | error error m =>
      rw [execute_of_error hr] at hx ⊢
      cases hx
      exact (composed_execute _ line.text).limit_of_runaway hr

lemma limit_of_runs {r : Outcome × Engine} {l : Nat} (h : Runs w s r)
    (hr : r.1 = .halted (.runaway l)) :
    l = s.settings.maxCommands ∧ s.settings.maxCommands ≤ r.2.machine.used := by
  induction h with
  | @ended w e r h =>
    obtain ⟨o, e'⟩ := r
    cases hr
    exact limit_of_round h
  | again h _ ih =>
    rw [← settings_of_again h]
    exact ih hr

/-- A line with a command that is refused for the limit ends the program. -/
lemma round_of_runaway {l : Nat} {m : Machine} (hp : e.plan = .line line)
    (h : e.counted.effect line.text = .error (.runaway l) m) :
    ∃ e', e.round w = .ended (.halted (.runaway l), e') := by
  have hfatal : (ExecError.runaway l).isFatal = true := rfl
  rw [round_eq, hp]
  dsimp only
  rw [execute_of_error h, conclude_of_fatal hfatal]
  exact ⟨_, rfl⟩

/-- **Every run is bounded by the limit of commands.** -/
theorem bounded_go (hs : s.machine.used ≤ s.settings.maxCommands) :
    Bounded s.settings.maxCommands s (s.go .yield) where
  returns := runs_go .yield s
  room {_ e line} _ _ k := by
    symm
    unfold effect
    refine execute_room ?_ (Nat.le_add_right _ k) line.text
    exact Nat.le_add_left e.settings.maxCallDepth e.counted.machine.callDepth
  passes henter h k hk := by
    refine Logo.repeatFrom_min henter _ _ ?_ ?_
    · rw [h.limit]
      exact h.used_le
    · rwa [h.limit]
  between h := by
    have hu := h.used_le hs
    rwa [h.settings] at hu
  inside {_ env n y} h := by
    refine ⟨h.used_le, ?_⟩
    have hlimit := h.limit
    have hn : n.used ≤ env.settings.maxCommands := hlimit ▸ h.used_le
    obtain ⟨_, _, _, _, _, _, hpart⟩ := h
    rw [← hlimit]
    exact hpart.composed.used_le_limit hn
  after := used_le_of_runs (runs_go .yield s) hs
  spent h := by
    obtain ⟨hl, hle⟩ := limit_of_runs (runs_go .yield s) h
    exact ⟨hl, Nat.le_antisymm (used_le_of_runs (runs_go .yield s) hs) hle⟩
  surfaces h hy := by
    obtain ⟨w, e, line, hr, hp, rfl, hpart⟩ := h
    obtain ⟨m, hm⟩ := hpart.runaway hy
    obtain ⟨e', he⟩ := round_of_runaway hp hm
    rw [hr.go_eq, go_eq, he]

/-! ### Sessions -/

/-- What a host may have done with an engine. -/
inductive Hosted (e : Engine) : Engine → Prop where
  | new : Hosted e e
  | call {e' : Engine} (c : Call) (h : Hosted e e') : Hosted e (e'.call c).2
  | stop {e' : Engine} (h : Hosted e e') : Hosted e e'.stop.2
  | perform {e' : Engine} (a : Debugger.Action) (h : Hosted e e') : Hosted e (e'.perform a)
  | setVariable {e' : Engine} (name : Text) (v : Value) (h : Hosted e e') :
      Hosted e (e'.setVariable name v)

lemma finishStopped_same (e : Engine) :
    e.finishStopped.2.settings = e.settings ∧
      e.finishStopped.2.machine.used = e.machine.used :=
  ⟨rfl, rfl⟩

lemma stop_same (e : Engine) :
    e.stop.2.settings = e.settings ∧ e.stop.2.machine.used = e.machine.used := by
  unfold stop
  dsimp only
  split
  · exact finishStopped_same _
  · exact ⟨rfl, rfl⟩

/-- A host never gets past the limit. -/
lemma Hosted.kept (h : Hosted e e') (hy : e.settings.suspend = .yield)
    (hu : e.machine.used ≤ e.settings.maxCommands) :
    e'.settings = e.settings ∧ e'.machine.used ≤ e.settings.maxCommands := by
  induction h with
  | new => exact ⟨rfl, hu⟩
  | @call e' c _ ih =>
    obtain ⟨hset, hle⟩ := ih
    cases hs : e'.entry c with
    | none =>
      rw [call_of_no_entry hs]
      exact ⟨hset, hle⟩
    | some s =>
      -- a program that is begun counts its commands anew
      obtain ⟨hs', hus⟩ := entry_used hs (hset ▸ hle)
      rw [call_of_entry (hset ▸ hy) hs]
      have hr := runs_go .yield s
      have hmax := used_le_of_runs hr hus
      rw [hs', hset] at hmax
      exact ⟨(settings_of_runs hr).trans (hs'.trans hset), hmax⟩
  | @stop e' _ ih =>
    obtain ⟨hs, hr⟩ := e'.stop_same
    rw [hs, hr]
    exact ih
  | perform a _ ih => exact ih
  | setVariable name v _ ih => exact ih

/-- **The limit of commands bounds every call of every session.** -/
theorem call_bounded_by_limit {e₀ : Engine} {source : Text} (hy : e₀.settings.suspend = .yield)
    (hload : e₀.load source = .ok e) (h : Hosted e e') (c : Call) :
    e'.machine.used ≤ e₀.settings.maxCommands ∧
      (∀ s, e'.entry c = some s → Bounded e₀.settings.maxCommands s (e'.call c)) ∧
      (e'.entry c = none → e'.call c = (.idle, e')) := by
  obtain ⟨hset, hzero, -, -⟩ := of_load hload
  obtain ⟨hset', hle⟩ := h.kept (hset ▸ hy) (by rw [hzero]; exact Nat.zero_le _)
  have hall : e'.settings = e₀.settings := hset'.trans hset
  refine ⟨hset ▸ hle, fun s hs => ?_, call_of_no_entry⟩
  obtain ⟨hs', hus⟩ := entry_used hs (hset' ▸ hle)
  rw [call_of_entry (hall ▸ hy) hs, ← hall, ← hs']
  exact bounded_go hus

/-- A program that jumps back forever, after its first line has been stepped over. -/
theorem call_bounded_by_limit_jump :
    ∃ e : Engine,
      (new default { maxCommands := 3, suspend := .yield }).load "L:A\nJ:A".toList = .ok e ∧
      (e.call .step).2.running = true ∧
      ((e.call .step).2.call .resume).2.machine.used = 3 ∧
      Bounded 3 (e.call .step).2.resumed ((e.call .step).2.call .resume) := by
  have hbounded : ∀ e : Engine,
      (new default { maxCommands := 3, suspend := .yield }).load "L:A\nJ:A".toList = .ok e →
      (e.call .step).2.running = true →
      Bounded 3 (e.call .step).2.resumed ((e.call .step).2.call .resume) :=
    fun e hload hr =>
      (call_bounded_by_limit rfl hload (.call .step .new) .resume).2.1 _ (if_pos hr)
  exact ⟨_, rfl, by decide +kernel, by decide +kernel, hbounded _ rfl (by decide +kernel)⟩

end Courseware.Engine
