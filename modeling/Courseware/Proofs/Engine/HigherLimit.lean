import Courseware.Proofs.Engine.Ceiling
import Courseware.Proofs.Engine.Recording
import Courseware.Proofs.Machine.HigherLimit

/-!
Runs under two limits of commands.

A run that ends for another reason than its limit is the same run under every higher limit. A run
that was cut short ends with its failure and the end of the program, and all that it recorded
before is recorded under a higher limit too. Both runs have one source of random numbers, which
may be any: where the program starts a generator without a seed, both get the next one of that
source.
-/

namespace Courseware.Engine

open Exec

variable {e : Engine} {n k : Nat} {w w' : Waiting}

def limited (e : Engine) (n : Nat) : Engine := { e with settings := e.settings.limited n }

/-- The same round under another limit. -/
def Round.limited (k : Nat) : Round → Round
  | .ended r => .ended (r.1, r.2.limited k)
  | .again w e => .again w (e.limited k)

/-! ### What does not look at the limit -/

lemma conclude_limited (w : Waiting) (i : Nat) (x : Except ExecError Directive) (e : Engine) :
    conclude w i x (e.limited k) = (conclude w i x e).limited k := by
  cases x with
  | ok d => cases d <;> rfl
  | error error =>
    by_cases hfatal : error.isFatal = true
    · rw [conclude_of_fatal hfatal, conclude_of_fatal hfatal]
      rfl
    · rw [conclude_of_not_fatal hfatal, conclude_of_not_fatal hfatal]
      rfl

lemma paused_limited (e : Engine) (reason : PauseReason) :
    (e.limited k).paused reason = (e.paused reason).limited k := by
  cases reason <;> rfl

lemma pause_limited (w : Waiting) (reason : PauseReason) (e : Engine) :
    (e.limited k).pause w reason = (e.pause w reason).limited k := by
  cases w with
  | yield =>
    rw [pause_yield, pause_yield, paused_limited]
    rfl
  | block answers =>
    rcases hd : (e.paused reason).debugger.await answers with ⟨signal, left, d⟩
    have hd' : ((e.limited k).paused reason).debugger.await answers = (signal, left, d) := by
      rw [paused_limited]
      exact hd
    rw [pause_block hd, pause_block hd', paused_limited]
    cases signal <;> rfl

/-- With a higher limit the same is planned, unless the limit was reached. -/
lemma plan_limited (hle : e.settings.maxCommands ≤ k) :
    e.plan = .exhausted ∨ (e.limited k).plan = e.plan := by
  by_cases hstop : e.debugger.stopRequested = true
  · right
    unfold plan
    rw [if_pos hstop]
    exact if_pos hstop
  by_cases hrun : (!e.running) = true
  · right
    unfold plan
    rw [if_neg hstop, if_pos hrun]
    exact (if_neg hstop).trans (if_pos hrun)
  by_cases hused : e.settings.maxCommands ≤ e.machine.used
  · left
    unfold plan
    rw [if_neg hstop, if_neg hrun, if_pos hused]
  · right
    have hused' : ¬ k ≤ e.machine.used := by omega
    unfold plan
    rw [if_neg hstop, if_neg hrun, if_neg hused]
    exact (if_neg hstop).trans ((if_neg hrun).trans (if_neg hused'))

/-! ### Runs that are cut short -/

/-- The run with the result `r` was cut short at the limit `n`: the last that it recorded is this
failure and the end of the program, and what it recorded before is in `log` too. -/
structure CutShort (n : Nat) (r : Outcome × Engine) (log : List Entry) : Prop where
  outcome : r.1 = .halted (.runaway n)
  recorded : ∃ before i sourceLine receivers receivers',
    r.2.machine.log.toList = before ++
      [.event (.lineError i sourceLine (ExecError.runaway n).message true) receivers,
        .event (.programFinished false) receivers'] ∧
    before <+: log

lemma CutShort.mono {r : Outcome × Engine} {log log' : List Entry} (h : CutShort n r log)
    (hlog : log <+: log') : CutShort n r log' := by
  obtain ⟨before, i, sourceLine, receivers, receivers', hr, hb⟩ := h.recorded
  exact ⟨h.outcome, before, i, sourceLine, receivers, receivers', hr, hb.trans hlog⟩

lemma cutShort_halt (e : Engine) (n : Nat) :
    CutShort n ((e.report (.runaway n)).halt (.runaway n)) e.machine.log.toList := by
  obtain ⟨receivers, hreport⟩ := e.records_report (.runaway n)
  obtain ⟨receivers', hhalt⟩ := (e.report (.runaway n)).records_halt (.runaway n)
  have hlog := (hreport.trans hhalt).log
  exact ⟨rfl, _, _, _, _, _, hlog, List.prefix_rfl⟩

/-- What the limit `k` makes of a round under the limit `n`. -/
inductive Round.Surpassed (n k : Nat) : Round → Round → Prop where
  | same {r : Round} (h : ∀ l e, r ≠ .ended (.halted (.runaway l), e)) :
      Surpassed n k r (r.limited k)
  | cut {r : Outcome × Engine} {r' : Round} (h : CutShort n r r'.engine.machine.log.toList) :
      Surpassed n k (.ended r) r'

lemma execute_limited {t : Text} (h : (e.limited k).effect t = e.effect t) :
    (e.limited k).execute t = ((e.execute t).1, (e.execute t).2.limited k) := by
  cases hr : e.effect t with
  | ok d m =>
    rw [execute_of_ok hr, execute_of_ok (h.trans hr)]
    rfl
  | error error m =>
    rw [execute_of_error hr, execute_of_error (h.trans hr)]
    rfl

/-- A line leads to the same, or is cut short. -/
lemma line_surpassed (hle : e.settings.maxCommands ≤ k) (w : Waiting) (i : Nat) (t : Text) :
    Round.Surpassed e.settings.maxCommands k (conclude w i (e.execute t).1 (e.execute t).2)
      (conclude w i ((e.limited k).execute t).1 ((e.limited k).execute t).2) := by
  have h : Surpassed e.settings.maxCommands (e.effect t) ((e.limited k).effect t) :=
    (composed_execute _ t).surpassed e.environment hle e.machine
  by_cases hcut : ∃ l m, e.effect t = .error (.runaway l) m
  · -- the line is cut short, and under the higher limit at least as much is recorded
    obtain ⟨l, m, hr⟩ := hcut
    have hrun : Courseware.execute e.settings.maxCallDepth t e.environment e.machine =
        .error (.runaway l) m := hr
    obtain rfl : l = e.settings.maxCommands :=
      ((composed_execute _ t).limit_of_runaway hrun).1
    have hfatal : (ExecError.runaway e.settings.maxCommands).isFatal = true := rfl
    have hfinal : (final ((e.limited k).effect t)).log =
        ((e.limited k).execute t).2.machine.log := by rw [execute_snd]
    have hgrown := (recorded_conclude w i ((e.limited k).execute t).1
      ((e.limited k).execute t).2).isPrefix
    rw [hr] at h
    rw [execute_of_error hr, conclude_of_fatal hfatal]
    rw [← hfinal] at hgrown
    exact .cut ((cutShort_halt _ _).mono (h.log_grows.trans hgrown))
  · -- the line stays below the limit
    have hsame : (e.limited k).effect t = e.effect t := by
      generalize hr : e.effect t = r at h
      cases h with
      | same => rfl
      | @cut m _ _ => exact absurd ⟨_, m, hr⟩ hcut
    rw [execute_limited hsame, conclude_limited]
    refine .same fun l e' hended => hcut ?_
    have herror := error_of_conclude hended
    cases hr : e.effect t with
    | ok d m =>
      rw [execute_of_ok hr] at herror
      cases herror
    | error error m =>
      rw [execute_of_error hr] at herror
      cases herror
      exact ⟨l, m, rfl⟩

/-- **A round under a higher limit.** -/
theorem round_surpassed (hle : e.settings.maxCommands ≤ k) (w : Waiting) :
    Round.Surpassed e.settings.maxCommands k (e.round w) ((e.limited k).round w) := by
  have hlog := (recorded_round w (e.limited k)).isPrefix
  rcases plan_limited hle with hp | hp
  · rw [round_eq w e, hp]
    exact .cut ((cutShort_halt e.heard _).mono hlog)
  · rw [round_eq w e, round_eq w (e.limited k), hp]
    cases hplan : e.plan with
    | stop => exact .same (r := .ended _) fun l e' h => by cases h
    | idle => exact .same (r := .ended _) fun l e' h => by cases h
    | finish => exact .same (r := .ended _) fun l e' h => by cases h
    | exhausted =>
      rw [round_eq w (e.limited k), hp, hplan] at hlog
      exact .cut ((cutShort_halt e.heard _).mono hlog)
    | pause reason =>
      have hsame : (e.limited k).arrested.pause w reason = (e.arrested.pause w reason).limited k :=
        pause_limited w reason e.arrested
      dsimp only
      rw [hsame]
      exact .same fun l e' h => pause_not_halted h
    | line line => exact line_surpassed (e := e.counted) hle w e.index line.text

/-- **A run under a higher limit.** -/
theorem go_surpassed (hle : e.settings.maxCommands ≤ k) (w : Waiting) :
    ((∀ l, (e.go w).1 ≠ .halted (.runaway l)) ∧
      (e.limited k).go w = ((e.go w).1, (e.go w).2.limited k)) ∨
      CutShort e.settings.maxCommands (e.go w) ((e.limited k).go w).2.machine.log.toList := by
  induction w, e using go_induction with
  | step w e ih =>
    have h := round_surpassed hle w
    generalize hr : e.round w = r at h
    generalize hr' : (e.limited k).round w = r' at h
    cases h with
    | same hother =>
      cases r with
      | ended r =>
        left
        have hgo : e.go w = r := by rw [go_eq, hr]
        have hgo' : (e.limited k).go w = (r.1, r.2.limited k) := by
          rw [go_eq, hr']
          rfl
        rw [hgo, hgo']
        refine ⟨fun l hl => hother l r.2 ?_, rfl⟩
        rw [← hl]
      | again w' e' =>
        have hset := settings_of_again hr
        have hgo : e.go w = e'.go w' := by rw [go_eq, hr]
        have hgo' : (e.limited k).go w = (e'.limited k).go w' := by
          rw [go_eq, hr']
          rfl
        rw [hgo, hgo', ← hset]
        exact ih w' e' hr (by rw [hset]; exact hle)
    | @cut r _ hcut =>
      right
      have hgo : e.go w = r := by rw [go_eq, hr]
      rw [hgo, go_eq, hr']
      -- under the higher limit the record can only grow from here
      cases r' with
      | ended r' => exact hcut
      | again w' e' => exact hcut.mono (recorded_go w' e').isPrefix

/-- **Raising the limit never changes what was computed.** A run that does not end for its limit
has the same outcome under a higher one, and leaves the same engine but for the limit. Of a run
that was cut short, all but the failure and the end of the program is recorded under a higher
limit. This is so for every source of random numbers that the engine may have, with a seed and
without one. -/
theorem run_of_higher_limit (e : Engine) (hle : n ≤ k) :
    ((∀ l, (e.limited n).run.1 ≠ .halted (.runaway l)) →
      (e.limited k).run.1 = (e.limited n).run.1 ∧
        (e.limited k).run.2 = (e.limited n).run.2.limited k) ∧
    ∀ l, (e.limited n).run.1 = .halted (.runaway l) →
      CutShort n (e.limited n).run (e.limited k).run.2.machine.log.toList := by
  have hrun : ∀ j, (e.limited j).run = (e.start.limited j).go (e.waiting []) := fun j =>
    (e.limited j).drive_eq []
  have hk : (e.start.limited n).limited k = e.start.limited k := rfl
  have h := go_surpassed (e := e.start.limited n) hle (e.waiting [])
  rw [hk, ← hrun n, ← hrun k] at h
  rcases h with ⟨hother, hsame⟩ | hcut
  · refine ⟨fun _ => ?_, fun l hl => absurd hl (hother l)⟩
    rw [hsame]
    exact ⟨rfl, rfl⟩
  · exact ⟨fun hother => absurd hcut.outcome (hother n), fun _ _ => hcut⟩

/-- A program that jumps back forever is cut short at every limit, and one that ends does not
come to its limit. Both start a generator without a seed. -/
theorem run_of_higher_limit_randomized :
    (∃ e : Engine, (new (.counting 5) { seed := some 7 }).load
        "L:A\nRANDOMIZE\nPRINT RND()\nJ:A".toList = .ok e ∧
      (e.limited 6).run.1 = .halted (.runaway 6) ∧
      (e.limited 6).run.2.machine.random.source.taken = 2 ∧
      CutShort 6 (e.limited 6).run (e.limited 9).run.2.machine.log.toList) ∧
    ∃ e : Engine, (new (.counting 5) { seed := some 7 }).load
        "RANDOMIZE\nLET X=RND()".toList = .ok e ∧
      (e.limited 4).run.1.isSuccess = true ∧
      (e.limited 4).run.2.machine.random.source.taken = 1 ∧
      (e.limited 9).run.1 = (e.limited 4).run.1 ∧
        (e.limited 9).run.2 = (e.limited 4).run.2.limited 9 := by
  have hcut : ∀ {o : Outcome},
      (match o with | .halted (.runaway l) => l == 6 | _ => false) = true →
        o = .halted (.runaway 6) := by
    intro o ho
    split at ho
    · rw [beq_iff_eq.1 ho]
    · cases ho
  have hended : ∀ {o : Outcome}, o.isSuccess = true → ∀ l, o ≠ .halted (.runaway l) := by
    rintro _ ho l rfl
    cases ho
  constructor
  · have hruns : ∀ e : Engine, (e.limited 6).run.1 = .halted (.runaway 6) →
        CutShort 6 (e.limited 6).run (e.limited 9).run.2.machine.log.toList := fun e he =>
      (run_of_higher_limit e (by decide)).2 6 he
    exact ⟨_, rfl, hcut (by decide +kernel), by decide +kernel, hruns _ (hcut (by decide +kernel))⟩
  · have hruns : ∀ e : Engine, (e.limited 4).run.1.isSuccess = true →
        (e.limited 9).run.1 = (e.limited 4).run.1 ∧
          (e.limited 9).run.2 = (e.limited 4).run.2.limited 9 := fun e he =>
      (run_of_higher_limit e (by decide)).1 (hended he)
    exact ⟨_, rfl, by decide +kernel, by decide +kernel, hruns _ (by decide +kernel)⟩

end Courseware.Engine
