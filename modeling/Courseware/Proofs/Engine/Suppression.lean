import Courseware.Proofs.Command.Listing
import Courseware.Proofs.Engine.Sessions
import Courseware.Proofs.Logo.Reading

/-!
Which commands a failed test suppresses.

The outcome of a test is settled at the end of each line, and not after each command. So it
reaches as far as to the end of the next line: of the commands up to there it is the first that
depends on a test which consumes it, whatever other commands come in between.
-/

namespace Courseware

open Exec

namespace Deed

def result (d : Deed) : EStateM.Result ExecError Machine Directive := d.task.run d.env d.machine

/-- A command `T:` or `J:`, which depends on the test before it. -/
def Awaits (d : Deed) : Prop :=
  ∃ room c, d.task = .command room (.pilot c) ∧ c.consumes = true

/-- A command `Y:` or `N:` that stores the truth `b`. -/
def Stores (d : Deed) (b : Bool) : Prop :=
  ∃ room t, d.task = .command room (.pilot (.test t)) ∧ (final d.result).verdict.last = b

/-- The command neither stores an outcome nor depends on one. -/
def Neutral (d : Deed) : Prop := ¬ d.Awaits ∧ ∀ b, ¬ d.Stores b

/-- The command neither writes a text nor leads elsewhere. -/
def Suppressed (d : Deed) : Prop :=
  ∃ m, d.result = .ok .next m ∧ m.log = d.machine.log

variable {d : Deed} {b : Bool}

lemma of_op? {o : Verdict.Op} (h : d.op? = some o) :
    ∃ room c, d.task = .command room (.pilot c) ∧ c.op? d.env d.machine = some o := by
  unfold op? at h
  split at h
  · next room c hc => exact ⟨room, c, hc, h⟩
  · cases h

lemma op?_of_task {room : Nat} {c : Pilot.Command} (h : d.task = .command room (.pilot c)) :
    d.op? = c.op? d.env d.machine := by
  unfold op?
  rw [h]

lemma op?_eq_arm_iff : d.op? = some (.arm b) ↔ d.Stores b := by
  have hlast : ∀ {room t}, d.task = .command room (.pilot (.test t)) →
      (final d.result).verdict.last = Pilot.outcome t d.env d.machine := by
    intro room t ht
    rw [result, ht]
    exact congrArg Verdict.last (Pilot.verdict_test t d.env d.machine)
  refine ⟨fun h => ?_, fun ⟨room, t, ht, hb⟩ => ?_⟩
  · obtain ⟨room, c, hc, ho⟩ := of_op? h
    obtain ⟨t, rfl, hb⟩ := Pilot.Command.op?_eq_arm_iff.1 ho
    exact ⟨room, t, hc, (hlast hc).trans hb⟩
  · rw [op?_of_task ht]
    exact Pilot.Command.op?_eq_arm_iff.2 ⟨t, rfl, (hlast ht).symm.trans hb⟩

lemma op?_eq_take_iff : d.op? = some .take ↔ d.Awaits := by
  refine ⟨fun h => ?_, fun ⟨room, c, ht, hc⟩ => ?_⟩
  · obtain ⟨room, c, hc, ho⟩ := of_op? h
    exact ⟨room, c, hc, Pilot.Command.op?_eq_take_iff.1 ho⟩
  · rw [op?_of_task ht]
    exact Pilot.Command.op?_eq_take_iff.2 hc

/-- A command does nothing else to the verdict. -/
lemma op?_eq_none_iff : d.op? = none ↔ d.Neutral := by
  refine ⟨fun h => ⟨fun ha => ?_, fun b hb => ?_⟩, fun ⟨hw, hs⟩ => ?_⟩
  · rw [op?_eq_take_iff.2 ha] at h
    cases h
  · rw [op?_eq_arm_iff.2 hb] at h
    cases h
  · cases ho : d.op? with
    | none => rfl
    | some o =>
      obtain ⟨room, c, -, hc⟩ := of_op? ho
      rcases Pilot.Command.eq_of_op? hc with rfl | ⟨b, rfl⟩
      · exact absurd (op?_eq_take_iff.1 ho) hw
      · exact absurd (op?_eq_arm_iff.1 ho) (hs b)

/-- A command that depends on a test is suppressed by the outcome that it consumes. -/
lemma suppressed_iff (h : d.Awaits) :
    d.Suppressed ↔ d.machine.verdict.take.1 = some false := by
  obtain ⟨task, env, m⟩ := d
  obtain ⟨room, c, rfl, hc⟩ := h
  unfold Suppressed result
  dsimp only
  -- what is carried out unless the test failed writes a text or does not just go on
  have hiff : ∀ {f : Bool → Exec Directive}, f false = pure .next →
      (∀ k, ¬ ∃ n, f true env k = .ok .next n ∧ n.log = k.log) →
      ((∃ n, (Pilot.Condition.unlessFailed.holds >>= f) env m = .ok .next n ∧ n.log = m.log) ↔
        m.verdict.take.1 = some false) := by
    intro f hno hyes
    rw [bind_of_ok (Pilot.holds_unlessFailed env m)]
    by_cases hv : m.verdict.take.1 = some false
    · simp only [hv, ne_eq, not_true_eq_false, decide_false, hno, iff_true]
      exact ⟨_, rfl, rfl⟩
    · simp only [hv, ne_eq, not_false_eq_true, decide_true, iff_false]
      exact hyes _
  cases c with
  | type c t =>
    cases c with
    | onLast b => cases hc
    | unlessFailed =>
      refine hiff rfl fun k hk => ?_
      obtain ⟨n, hn, hlog⟩ := hk
      cases hn
      -- the text that is written makes the record longer
      have hsize := congrArg Array.size hlog
      simp [Machine.emit] at hsize
  | jump c t =>
    cases c with
    | onLast b => cases hc
    | unlessFailed =>
      refine hiff rfl fun k hk => ?_
      obtain ⟨n, hn, -⟩ := hk
      -- a jump that succeeds leads elsewhere
      change Pilot.jump t env k = .ok .next n at hn
      unfold Pilot.jump at hn
      split at hn
      · cases hn
      · obtain ⟨i, n', -, hi⟩ := ok_of_bind hn
        cases hi
  | _ => cases hc

end Deed

/-- What happens in a run. -/
inductive Moment where
  | deed (d : Deed)
  /-- A line of the program is over. -/
  | lineEnd

namespace Moment

def isLineEnd : Moment → Bool
  | .lineEnd => true
  | .deed _ => false

/-- What is seen of a moment: the command, if it is one of PILOT, with the verdicts before and
after it. -/
def sketch : Moment → Option (Option (Pilot.Command × Verdict × Verdict))
  | .lineEnd => none
  | .deed d =>
    match d.task with
    | .command _ (.pilot c) => some (some (c, d.machine.verdict, (final d.result).verdict))
    | _ => some none

lemma eq_lineEnd_of_sketch {x : Moment} (h : x.sketch = none) : x = .lineEnd := by
  unfold sketch at h
  split at h
  · rfl
  · split at h <;> cases h

lemma of_sketch {x : Moment} {c : Pilot.Command} {v v' : Verdict}
    (h : x.sketch = some (some (c, v, v'))) :
    ∃ d room, x = .deed d ∧ d.task = .command room (.pilot c) ∧ d.machine.verdict = v ∧
      (final d.result).verdict = v' := by
  unfold sketch at h
  split at h
  · cases h
  · next d =>
    split at h
    · next room c ht =>
      cases h
      exact ⟨d, room, rfl, ht, rfl, rfl⟩
    · cases h

/-- What a moment does to the verdict. -/
def op? : Moment → Option Verdict.Op
  | .deed d => d.op?
  | .lineEnd => some .settle

/-- The last test stored `b`. No command that depends on a test has come since, and at most one
line has ended. -/
def Outstanding (ms : List Moment) (b : Bool) : Prop :=
  ∃ before test between, ms = before ++ .deed test :: between ∧ test.Stores b ∧
    (∀ d, .deed d ∈ between → d.Neutral) ∧ between.countP isLineEnd ≤ 1

variable {ms : List Moment} {b : Bool}

/-- Moments that only settle the verdict. -/
lemma filterMap_op?_eq_iff :
    (ms.filterMap op? = [] ∨ ms.filterMap op? = [.settle]) ↔
      (∀ d, .deed d ∈ ms → d.Neutral) ∧ ms.countP isLineEnd ≤ 1 := by
  -- neutral commands leave only the ends of lines
  have hlength : (∀ d, .deed d ∈ ms → d.Neutral) →
      ms.filterMap op? = List.replicate (ms.countP isLineEnd) .settle := by
    induction ms with
    | nil => exact fun _ => rfl
    | cons x ms ih =>
      intro h
      have hms := ih fun d hd => h d (List.mem_cons_of_mem x hd)
      cases x with
      | lineEnd =>
        have hop : op? .lineEnd = some .settle := rfl
        rw [List.filterMap_cons_some hop, hms, List.countP_cons_of_pos rfl, List.replicate_succ]
      | deed d =>
        have hd : op? (.deed d) = none := Deed.op?_eq_none_iff.2 (h d List.mem_cons_self)
        simp [hd, isLineEnd, hms]
  constructor
  · intro h
    have hall : ∀ d, .deed d ∈ ms → d.Neutral := by
      intro d hd
      refine Deed.op?_eq_none_iff.1 ?_
      cases ho : d.op? with
      | none => rfl
      | some o =>
        have hmem : o ∈ ms.filterMap op? := List.mem_filterMap.2 ⟨.deed d, hd, ho⟩
        -- no command settles, and a command that is not neutral does something
        obtain ⟨room, c, -, hc⟩ := Deed.of_op? ho
        rcases h with h | h <;> rw [h] at hmem
        · cases hmem
        · obtain rfl := List.mem_singleton.1 hmem
          rcases Pilot.Command.eq_of_op? hc with hc | ⟨b, hc⟩ <;> cases hc
    refine ⟨hall, ?_⟩
    have hle : (ms.filterMap op?).length ≤ 1 := by
      rcases h with h | h <;> simp [h]
    rwa [hlength hall, List.length_replicate] at hle
  · rintro ⟨hall, hcount⟩
    rw [hlength hall]
    rcases Nat.le_one_iff_eq_zero_or_eq_one.1 hcount with h | h <;> rw [h]
    · exact .inl rfl
    · exact .inr rfl

/-- An outcome is there to be consumed if the moments leave it outstanding. -/
lemma outstanding_iff :
    Outstanding ms b ↔ (Verdict.replay {} (ms.filterMap op?)).take.1 = some b := by
  rw [Verdict.take_replay_eq_some_iff]
  constructor
  · rintro ⟨before, test, between, rfl, hs, hb⟩
    have hop : op? (.deed test) = some (.arm b) := Deed.op?_eq_arm_iff.2 hs
    refine ⟨before.filterMap op?, ?_⟩
    rw [List.filterMap_append, List.filterMap_cons_some hop]
    rcases filterMap_op?_eq_iff.2 hb with h | h <;> rw [h]
    · exact .inl rfl
    · exact .inr rfl
  · rintro ⟨ops, h⟩
    obtain ⟨rest, hrest, h⟩ : ∃ rest, (rest = [] ∨ rest = [.settle]) ∧
        ms.filterMap op? = ops ++ .arm b :: rest := by
      rcases h with h | h
      · exact ⟨[], .inl rfl, h⟩
      · exact ⟨[.settle], .inr rfl, h⟩
    -- the operation that stores the outcome comes from one moment, and that is a test
    obtain ⟨l, l', rfl, -, hl'⟩ := List.filterMap_eq_append_iff.1 h
    obtain ⟨skipped, x, between, rfl, -, hx, hbetween⟩ := List.filterMap_eq_cons_iff.1 hl'
    cases x with
    | lineEnd => cases hx
    | deed test =>
      refine ⟨l ++ skipped, test, between, by simp, Deed.op?_eq_arm_iff.1 hx, ?_⟩
      exact filterMap_op?_eq_iff.1 (hbetween ▸ hrest)

/-- What a line of one command leaves outstanding. -/
lemma outstanding_single_iff {earlier : List Moment} {d : Deed}
    (h : earlier = [] ∨ earlier.getLast? = some .lineEnd) :
    Outstanding (earlier ++ [.deed d, .lineEnd]) b ↔ d.Stores b := by
  -- what came before ends with a line, so nothing of it is fresh
  have hearlier : ∀ l, earlier.filterMap op? ≠ l ++ [.arm b] := by
    intro l hl
    rcases h with rfl | h
    · simp at hl
    · obtain ⟨l', rfl⟩ := List.getLast?_eq_some_iff.1 h
      rw [List.filterMap_append] at hl
      cases (List.append_inj' hl rfl).2
  have hops : (earlier ++ [deed d, lineEnd]).filterMap op? =
      (earlier.filterMap op? ++ d.op?.toList) ++ [.settle] := by
    cases ho : d.op? <;> simp [ho, op?]
  rw [outstanding_iff, hops, Verdict.replay_concat, ← Deed.op?_eq_arm_iff]
  refine (Verdict.take_settle_eq_some_iff.trans Verdict.fresh_replay_iff).trans ?_
  cases d.op? with
  | none => simpa using hearlier
  | some o => simp

end Moment

namespace Engine

variable {e : Engine} {line : Line} {w : Waiting}

/-- The commands that are executed in the course of the line at which the engine is. -/
def deeds (e : Engine) (line : Line) : List Deed :=
  lineDeeds e.counted.environment e.settings.maxCallDepth line.text e.counted.machine

/-- What happens in a round. -/
def moments (e : Engine) : List Moment :=
  match e.plan with
  | .line line => (e.deeds line).map .deed ++ [.lineEnd]
  | _ => []

/-- What happens in a round is that the commands of a line are executed. -/
theorem mem_moments_iff {d : Deed} :
    .deed d ∈ e.moments ↔ ∃ line, e.plan = .line line ∧
      Task.Executes e.counted.environment (.line e.settings.maxCallDepth line.text)
        e.counted.machine d := by
  unfold moments
  split
  · next line hp => simp [hp, deeds, Task.mem_lineDeeds_iff]
  · next hp => simpa using fun line h => absurd h (hp line)

/-- Acts of a host that neither begin a run nor go on with it. -/
def Act.isAside : Act → Bool
  | .stop => true
  | .setVariable .. => true
  | .perform _ => true
  | .subscribe .. => true
  | .unsubscribe _ => true
  | .setInput _ => true
  | .register .. => true
  | _ => false

/-- What has happened in a run so far, from its start to an engine between two rounds. A host may
do something in a pause and go on in either way. -/
inductive Progress : List Moment → Engine → Prop where
  | start (e : Engine) : Progress [] e.start
  | round {hist : List Moment} {e : Engine} (h : Progress hist e) (w : Waiting) :
      Progress (hist ++ e.moments) (e.round w).engine
  | aside {hist : List Moment} {e : Engine} (h : Progress hist e) {a : Act}
      (ha : a.isAside = true) : Progress hist (e.act a)
  | resumed {hist : List Moment} {e : Engine} (h : Progress hist e) : Progress hist e.resumed
  | stepped {hist : List Moment} {e : Engine} (h : Progress hist e) : Progress hist e.stepped

/-! ### The history of a run -/

section

variable {s : Engine} {w' : Waiting} {hist : List Moment} {a : Act}

lemma Progress.reaches (h : Progress hist e) (hr : Reaches w e w' s) :
    ∃ hist', Progress hist' s := by
  induction hr generalizing hist with
  | here => exact ⟨hist, h⟩
  | @round w _ _ _ _ _ hround _ ih =>
    have hnext := h.round w
    rw [hround] at hnext
    exact ih hnext

lemma Progress.go (h : Progress hist e) (w : Waiting) : ∃ hist', Progress hist' (e.go w).2 := by
  induction w, e using go_induction generalizing hist with
  | step w e ih =>
    have hnext := h.round w
    rw [go_eq]
    cases hr : e.round w with
    | ended r =>
      rw [hr] at hnext
      exact ⟨_, hnext⟩
    | again w' e' =>
      rw [hr] at hnext
      exact ih w' e' hr hnext

lemma exists_progress_of_begins (he : e.running = true → ∃ hist, Progress hist e)
    (h : e.begins a = some (w, s)) : ∃ hist, Progress hist s := by
  cases a with
  | drive answers =>
    cases h
    exact ⟨[], .start e⟩
  | resume =>
    rw [begins_resume] at h
    split at h
    · next hr =>
      cases h
      obtain ⟨hist, hp⟩ := he hr
      exact ⟨hist, hp.resumed⟩
    · cases h
  | step =>
    cases h
    split
    · next hr =>
      obtain ⟨hist, hp⟩ := he hr
      exact ⟨hist, hp.stepped⟩
    · exact ⟨[], (Progress.start e).stepped⟩
  | _ => cases h

lemma exists_progress_act (he : e.running = true → ∃ hist, Progress hist e)
    (h : (e.act a).running = true) : ∃ hist, Progress hist (e.act a) := by
  cases hb : e.begins a with
  | some b =>
    obtain ⟨hist, hp⟩ := exists_progress_of_begins he hb
    rw [act_of_begins hb]
    exact hp.go b.1
  | none =>
    -- what is left does not let the program run
    have haside : a.isAside = true → e.running = true → ∃ hist, Progress hist (e.act a) := by
      intro ha hr
      obtain ⟨hist, hp⟩ := he hr
      exact ⟨hist, hp.aside ha⟩
    cases a with
    | drive answers => cases hb
    | step => cases hb
    | resume =>
      -- there is nothing to resume, so nothing has changed
      rw [act_resume_of_none hb] at h ⊢
      exact he h
    | stop =>
      -- a stop ends the run of a paused engine and leaves any other running
      refine haside rfl ?_
      change e.stop.2.running = true at h
      unfold stop at h
      dsimp only at h
      split at h
      · cases h
      · exact h
    -- a reset, or another program, ends the run
    | reset => cases h
    | load source =>
      cases hl : e.load source with
      | error error =>
        rw [act_load_of_error hl] at h ⊢
        exact he h
      | ok e' =>
        rw [act_load_of_ok hl] at h
        cases (of_load hl).2.2.2.symm.trans h
    -- beside the run
    | setVariable name v => exact haside rfl h
    | perform a => exact haside rfl h
    | subscribe c react => exact haside rfl h
    | unsubscribe id => exact haside rfl h
    | setInput s => exact haside rfl h
    | register subsystem c => exact haside rfl h

/-- **Every engine that runs in a session has a history.** -/
theorem Arises.exists_progress (he : e.running = false) (h : Arises e s)
    (hs : s.running = true) : ∃ hist, Progress hist s := by
  -- the property is kept by every act, so induction on the acts
  have hafter : ∀ acts : List Act, ∀ e : Engine, (e.running = true → ∃ hist, Progress hist e) →
      (e.after acts).running = true → ∃ hist, Progress hist (e.after acts) := by
    intro acts
    induction acts with
    | nil => exact fun e he => he
    | cons a acts ih => exact fun e he => ih (e.act a) (exists_progress_act he)
  have hstart : e.running = true → ∃ hist, Progress hist e := by
    intro hr
    rw [he] at hr
    cases hr
  cases h with
  | after acts => exact hafter acts e hstart hs
  | during acts hb hr =>
    obtain ⟨hist, hp⟩ := exists_progress_of_begins (hafter acts e hstart) hb
    exact hp.reaches hr

end

/-! ### The verdict of a run -/

lemma verdict_conclude (w : Waiting) (i : Nat) (x : Except ExecError Directive) (e : Engine) :
    (conclude w i x e).engine.machine.verdict = e.machine.verdict := by
  unfold conclude
  split
  · rfl
  · rfl
  · rfl
  · rfl
  · split <;> rfl

lemma verdict_pause (w : Waiting) (reason : PauseReason) (e : Engine) :
    (e.pause w reason).engine.machine.verdict = e.machine.verdict := by
  have hpaused : (e.paused reason).machine.verdict = e.machine.verdict := by
    cases reason <;> rfl
  cases w with
  | yield =>
    rw [pause_yield]
    exact hpaused
  | block answers =>
    rcases hd : (e.paused reason).debugger.await answers with ⟨signal, left, d⟩
    rw [pause_block hd]
    cases signal <;> exact hpaused

/-- What happens in a round is done to the verdict. -/
lemma verdict_round (w : Waiting) (e : Engine) :
    (e.round w).engine.machine.verdict =
      e.machine.verdict.replay (e.moments.filterMap Moment.op?) := by
  rw [round_eq]
  unfold moments
  cases e.plan with
  | pause reason => exact verdict_pause w reason e.arrested
  | line line =>
    have hops : ((e.deeds line).map Moment.deed).filterMap Moment.op? =
        (e.deeds line).filterMap Deed.op? := List.filterMap_map
    have heffect : (final (e.counted.effect line.text)).verdict =
        e.machine.verdict.replay ((e.deeds line).filterMap Deed.op?) :=
      (passes_line e.counted.environment _ line.text e.counted.machine).eq_replay
    dsimp only
    -- the commands of the line come first, its end settles what they have stored
    rw [verdict_conclude, execute_snd, List.filterMap_append, hops, Verdict.replay_append,
      ← heffect]
    rfl
  | _ => rfl

lemma verdict_aside {a : Act} (ha : a.isAside = true) (e : Engine) :
    (e.act a).machine.verdict = e.machine.verdict := by
  cases a with
  | stop =>
    change e.stop.2.machine.verdict = _
    unfold stop
    dsimp only
    split <;> rfl
  | setVariable name v => rfl
  | perform a => rfl
  | subscribe c react => rfl
  | unsubscribe id => rfl
  | setInput s => rfl
  | register subsystem c => rfl
  | _ => cases ha

/-- **The verdict of a run is what its history makes of it.** -/
theorem Progress.verdict_eq {hist : List Moment} (h : Progress hist e) :
    e.machine.verdict = Verdict.replay {} (hist.filterMap Moment.op?) := by
  induction h with
  | start e => rfl
  | round h w ih => rw [verdict_round, ih, List.filterMap_append, Verdict.replay_append]
  | aside h ha ih => exact (verdict_aside ha _).trans ih
  | @resumed hist e h ih =>
    refine Eq.trans ?_ ih
    unfold Engine.resumed
    split <;> rfl
  | stepped h ih => exact ih

/-- The verdict that a command meets in its round. -/
lemma verdict_of_moments {before after : List Moment} {d : Deed}
    (h : e.moments = before ++ .deed d :: after) :
    d.machine.verdict = e.machine.verdict.replay (before.filterMap Moment.op?) := by
  unfold moments at h
  split at h
  · next line _ =>
    -- the command is no end of a line, so it is one of the commands of the line
    obtain ⟨after, h⟩ : ∃ after, (e.deeds line).map Moment.deed = before ++ .deed d :: after := by
      rcases List.append_eq_append_iff.1 h with ⟨mid, -, hm⟩ | ⟨mid, hb, hm⟩
      · rcases List.append_eq_singleton_iff.1 hm.symm with ⟨-, hm⟩ | ⟨-, hm⟩ <;> cases hm
      · cases mid with
        | nil => cases hm
        | cons x mid =>
          cases hm
          exact ⟨mid, hb⟩
    obtain ⟨ds, ds', hds, rfl, hds'⟩ := List.map_eq_append_iff.1 h
    obtain ⟨d', rest, rfl, hd', -⟩ := List.map_eq_cons_iff.1 hds'
    cases hd'
    have hpasses := passes_line e.counted.environment e.settings.maxCallDepth line.text
      e.counted.machine
    change Passes _ (e.deeds line) _ at hpasses
    rw [hds] at hpasses
    rw [hpasses.verdict_eq, List.filterMap_map]
    rfl
  · simp at h

/-- The verdict that a command meets in a run. -/
lemma Progress.verdict_of_deed {hist before after : List Moment} {d : Deed} (h : Progress hist e)
    (hd : hist = before ++ .deed d :: after) :
    d.machine.verdict = Verdict.replay {} (before.filterMap Moment.op?) := by
  induction h generalizing after with
  | start e => simp at hd
  | aside h ha ih => exact ih hd
  | resumed h ih => exact ih hd
  | stepped h ih => exact ih hd
  | @round hist e h w ih =>
    -- the command belongs to the last round
    have hlast : ∀ {mid after}, before = hist ++ mid → e.moments = mid ++ .deed d :: after →
        d.machine.verdict = Verdict.replay {} (before.filterMap Moment.op?) := by
      rintro mid after rfl hm
      rw [verdict_of_moments hm, h.verdict_eq, List.filterMap_append, Verdict.replay_append]
    rcases List.append_eq_append_iff.1 hd with ⟨mid, hb, hm⟩ | ⟨mid, hb, hm⟩
    · exact hlast hb hm
    · cases mid with
      | nil => exact @hlast [] after (by simpa using hb.symm) hm.symm
      | cons x mid =>
        -- it belongs to an earlier one
        cases hm
        exact ih hb

/-- **A failed test suppresses the first command that depends on it, up to the end of the next
line.** So it is the command right before that counts where each line is a single command. -/
theorem suppressed_iff_outstanding {hist before after : List Moment} {d : Deed}
    (h : Progress hist e) (hd : hist = before ++ .deed d :: after) (ha : d.Awaits) :
    (d.Suppressed ↔ Moment.Outstanding before false) ∧
    ∀ earlier b, before = earlier ++ [.deed b, .lineEnd] →
      (earlier = [] ∨ earlier.getLast? = some .lineEnd) → (d.Suppressed ↔ b.Stores false) := by
  have hiff : d.Suppressed ↔ Moment.Outstanding before false := by
    rw [Deed.suppressed_iff ha, h.verdict_of_deed hd, Moment.outstanding_iff]
  refine ⟨hiff, fun earlier b hb hline => ?_⟩
  rw [hiff, hb]
  exact Moment.outstanding_single_iff hline

/-- A test that fails, and a text that is not written in the next line. -/
theorem suppressed_iff_outstanding_flat :
    ∃ (e : Engine) (hist after : List Moment) (b d : Deed),
      (new default {}).load "Y:1=2\nT:hidden".toList = .ok e ∧
      Progress hist ((e.start.round .yield).engine.round .yield).engine ∧
      hist = [.deed b, .lineEnd] ++ .deed d :: after ∧ d.Awaits ∧ b.Stores false ∧
      d.Suppressed := by
  obtain ⟨e, hload, hsketch⟩ : ∃ e, (new default {}).load "Y:1=2\nT:hidden".toList = .ok e ∧
      (e.start.moments ++ (e.start.round .yield).engine.moments).map Moment.sketch =
        [some (some (.test "1=2".toList, {}, ⟨false, false, true⟩)), none,
          some (some (.type .unlessFailed "hidden".toList, ⟨false, false, false⟩,
            ⟨false, true, false⟩)), none] := ⟨_, rfl, by decide +kernel⟩
  obtain ⟨x, _, hist, hx, hrest⟩ := List.map_eq_cons_iff.1 hsketch
  obtain ⟨y, _, rfl, hy, hrest⟩ := List.map_eq_cons_iff.1 hrest
  obtain ⟨z, after, rfl, hz, -⟩ := List.map_eq_cons_iff.1 hrest
  obtain ⟨b, room, rfl, hb, -, hstored⟩ := Moment.of_sketch hx
  obtain rfl := Moment.eq_lineEnd_of_sketch hy
  obtain ⟨d, room', rfl, hd, -, -⟩ := Moment.of_sketch hz
  have hstores : b.Stores false := ⟨room, _, hb, congrArg Verdict.last hstored⟩
  have hawaits : d.Awaits := ⟨room', _, hd, rfl⟩
  have hprogress := ((Progress.start e).round .yield).round .yield
  rw [List.nil_append] at hprogress
  refine ⟨e, _, after, b, d, hload, hprogress, hist, hawaits, hstores, ?_⟩
  exact ((suppressed_iff_outstanding hprogress hist hawaits).2 [] b rfl (.inl rfl)).2 hstores

/-- In a procedure another command may come between a test and the text that it suppresses. -/
theorem suppressed_past_assignment :
    ∃ (e : Engine) (hist before after : List Moment) (b d : Deed),
      (new default {}).load "P\nTO P\nY:0\nU:X=1\nT:hello\nEND".toList = .ok e ∧
      Progress hist (e.start.round .yield).engine ∧
      hist = before ++ .deed b :: .deed d :: after ∧ b.Neutral ∧ d.Awaits ∧ d.Suppressed := by
  obtain ⟨q, hparams, e, hload, hq, hroom, hplan, hdeeds⟩ : ∃ q : Procedure, q.params = [] ∧
      ∃ e, (new default {}).load "P\nTO P\nY:0\nU:X=1\nT:hello\nEND".toList = .ok e ∧
      e.program.procedure? "P".toList = some q ∧ e.settings.maxCallDepth = 64 ∧
      e.start.plan = .line ⟨1, none, "P".toList⟩ ∧
      ((Command.logo [.simple (.call "P".toList q [])]).deeds e.start.counted.environment 64
          (lineDeeds e.start.counted.environment 63) e.start.counted.machine).map
            (Moment.sketch ∘ .deed) =
        [some none, some (some (.test "0".toList, {}, ⟨false, false, true⟩)),
          some (some (.assign "X=1".toList, ⟨false, false, true⟩, ⟨false, false, true⟩)),
          some (some (.type .unlessFailed "hello".toList, ⟨false, false, true⟩,
            ⟨false, true, true⟩))] :=
    ⟨⟨"P".toList, [], ["Y:0".toList, "U:X=1".toList, "T:hello".toList], 1, 5⟩, rfl, _, rfl,
      by decide +kernel, rfl, rfl, by decide +kernel⟩
  have hread : Command.read e.program "P".toList = .logo [.simple (.call "P".toList q [])] := by
    have htrim : Text.trim "P".toList = "P".toList := rfl
    have hclass : Family.classify "P".toList = .unknown := by decide
    have hfirst : Text.firstWord "P".toList = "P".toList := rfl
    have hwords : Logo.splitWords "P".toList = .ok [.atom "P".toList] :=
      Logo.splitWords_eq_words (by simp [Logo.isMark, Text.isQuote])
    rw [Command.read, htrim, hclass]
    dsimp only
    rw [hfirst, hq, Option.isSome_some, if_pos rfl, Command.readBlock, hwords]
    dsimp only
    rw [Logo.sentences_call rfl hq hparams, Logo.sentences]
  have hmoments : e.start.moments.map Moment.sketch =
      [some none, some (some (.test "0".toList, {}, ⟨false, false, true⟩)),
        some (some (.assign "X=1".toList, ⟨false, false, true⟩, ⟨false, false, true⟩)),
        some (some (.type .unlessFailed "hello".toList, ⟨false, false, true⟩,
          ⟨false, true, true⟩)), none] := by
    have hline : e.start.deeds ⟨1, none, "P".toList⟩ =
        (Command.read e.program "P".toList).deeds e.start.counted.environment 64
          (lineDeeds e.start.counted.environment 63) e.start.counted.machine := by
      rw [deeds, show e.start.settings.maxCallDepth = 64 from hroom]
      rfl
    unfold moments
    rw [hplan]
    dsimp only
    rw [hline, hread, List.map_append, List.map_map, hdeeds]
    rfl
  obtain ⟨x, _, hist, -, hrest⟩ := List.map_eq_cons_iff.1 hmoments
  obtain ⟨y, _, rfl, -, hrest⟩ := List.map_eq_cons_iff.1 hrest
  obtain ⟨z, _, rfl, hz, hrest⟩ := List.map_eq_cons_iff.1 hrest
  obtain ⟨u, after, rfl, hu, -⟩ := List.map_eq_cons_iff.1 hrest
  obtain ⟨b, room, rfl, hb, -, -⟩ := Moment.of_sketch hz
  obtain ⟨d, room', rfl, hd, hverdict, -⟩ := Moment.of_sketch hu
  have hneutral : b.Neutral := Deed.op?_eq_none_iff.1 (Deed.op?_of_task hb)
  have hawaits : d.Awaits := ⟨room', _, hd, rfl⟩
  have hsuppressed : d.Suppressed := (Deed.suppressed_iff hawaits).2 (by rw [hverdict]; rfl)
  have hprogress := (Progress.start e).round .yield
  rw [List.nil_append] at hprogress
  exact ⟨e, _, [x, y], after, b, d, hload, hprogress, hist, hneutral, hawaits, hsuppressed⟩

end Engine

end Courseware
