import Courseware.Verdict
import Mathlib.Data.List.Induction
import Mathlib.Tactic.Lemma

/-!
What a history of operations leaves of the outcomes of tests.

An outcome can be consumed as long as nothing has happened since it was stored, except that it
was settled once.
-/

namespace Courseware.Verdict

/-- What can happen to a verdict. -/
inductive Op where
  | arm (b : Bool)
  | take
  | settle
  | clear
deriving DecidableEq

def apply (v : Verdict) : Op → Verdict
  | .arm b => v.arm b
  | .take => v.take.2
  | .settle => v.settle
  | .clear => v.clear

def replay (v : Verdict) (ops : List Op) : Verdict := ops.foldl apply v

variable {v : Verdict} {ops : List Op} {b : Bool}

@[simp] lemma replay_nil (v : Verdict) : v.replay [] = v := rfl

lemma replay_append (v : Verdict) (ops ops' : List Op) :
    v.replay (ops ++ ops') = (v.replay ops).replay ops' := List.foldl_append

lemma replay_concat (v : Verdict) (ops : List Op) (o : Op) :
    v.replay (ops ++ [o]) = (v.replay ops).apply o := replay_append v ops [o]

@[simp] lemma consumed_take (v : Verdict) : v.take.2.consumed = true := by
  unfold take
  split
  · next h => exact h
  · rfl

@[simp] lemma fresh_settle (v : Verdict) : v.settle.fresh = false := by
  unfold settle
  split
  · rfl
  · next h => simpa using h

@[simp] lemma last_take (v : Verdict) : v.take.2.last = v.last := by
  unfold take
  split <;> rfl

@[simp] lemma last_settle (v : Verdict) : v.settle.last = v.last := by
  unfold settle
  split <;> rfl

lemma take_eq_some_iff : v.take.1 = some b ↔ v.consumed = false ∧ v.last = b := by
  unfold take
  cases v.consumed <;> simp

lemma take_eq_none_iff : v.take.1 = none ↔ v.consumed = true := by
  unfold take
  cases v.consumed <;> simp

lemma take_settle_eq_some_iff :
    v.settle.take.1 = some b ↔ v.fresh = true ∧ v.consumed = false ∧ v.last = b := by
  rw [take_eq_some_iff]
  unfold settle
  cases v.fresh <;> simp

/-- An outcome that has not been settled is stored by the last operation. -/
lemma fresh_replay_iff :
    ((replay {} ops).fresh = true ∧ (replay {} ops).consumed = false ∧
      (replay {} ops).last = b) ↔ ∃ before, ops = before ++ [.arm b] := by
  induction ops using List.reverseRecOn with
  | nil => simp
  | append_singleton ops o _ =>
    rw [replay_concat]
    cases o with
    | arm c => simp [apply, arm]
    | take => simp [apply]
    | settle => simp [apply]
    | clear => simp [apply, clear]

/-- **An outcome is there if it is the last thing that happened, or was settled once since.** -/
theorem take_replay_eq_some_iff :
    (replay {} ops).take.1 = some b ↔
      ∃ before, ops = before ++ [.arm b] ∨ ops = before ++ [.arm b, .settle] := by
  -- only an end of a line may come after the outcome
  have hlast : ∀ {ops before : List Op} {o : Op}, o ≠ .settle →
      ops ++ [o] ≠ before ++ [.arm b, .settle] := by
    intro ops before o ho h
    have h := congrArg List.getLast? h
    simp at h
    exact ho h
  induction ops using List.reverseRecOn with
  | nil => simp [take]
  | append_singleton ops o _ =>
    rw [replay_concat]
    cases o with
    | arm c => simp [apply, arm, take, hlast]
    | take => simp [apply, take_eq_some_iff, hlast]
    | clear => simp [apply, clear, take, hlast]
    | settle =>
      refine (take_settle_eq_some_iff.trans fresh_replay_iff).trans (exists_congr fun before => ?_)
      have hsettled : before ++ [Op.arm b, .settle] = before ++ [.arm b] ++ [.settle] := by simp
      rw [hsettled, List.append_left_inj]
      refine (or_iff_right fun h => ?_).symm
      cases (List.append_inj' h rfl).2

/-! ### What a history has to say -/

/-- The outcome `b` was stored, and since then nothing has happened to it but that it was settled,
at most once. -/
def Pending (ops : List Op) (b : Bool) : Prop :=
  ∃ before after, ops = before ++ .arm b :: after ∧ (∀ c, .arm c ∉ after) ∧ .clear ∉ after ∧
    .take ∉ after ∧ after.count .settle ≤ 1

/-- The outcome `b` was stored, and since then none was stored and nothing was cleared. -/
def LastArmed (ops : List Op) (b : Bool) : Prop :=
  ∃ before after, ops = before ++ .arm b :: after ∧ (∀ c, .arm c ∉ after) ∧ .clear ∉ after

lemma eq_nil_or_settle_iff {after : List Op} :
    after = [] ∨ after = [.settle] ↔
      (∀ c, .arm c ∉ after) ∧ .clear ∉ after ∧ .take ∉ after ∧ after.count .settle ≤ 1 := by
  constructor
  · rintro (rfl | rfl) <;> simp
  · rintro ⟨harm, hclear, htake, hcount⟩
    have hsettle : ∀ o ∈ after, o = .settle := by
      intro o ho
      cases o with
      | arm c => exact absurd ho (harm c)
      | take => exact absurd ho htake
      | settle => rfl
      | clear => exact absurd ho hclear
    rw [List.eq_replicate_of_mem hsettle, List.count_replicate_self] at hcount
    rw [List.eq_replicate_of_mem hsettle]
    rcases Nat.le_one_iff_eq_zero_or_eq_one.1 hcount with h | h <;> simp [h]

lemma pending_iff :
    Pending ops b ↔ ∃ before, ops = before ++ [.arm b] ∨ ops = before ++ [.arm b, .settle] := by
  refine exists_congr fun before => ?_
  constructor
  · rintro ⟨after, rfl, h⟩
    rcases eq_nil_or_settle_iff.2 h with rfl | rfl
    · exact .inl rfl
    · exact .inr rfl
  · rintro (rfl | rfl)
    · exact ⟨[], rfl, eq_nil_or_settle_iff.1 (.inl rfl)⟩
    · exact ⟨[.settle], rfl, eq_nil_or_settle_iff.1 (.inr rfl)⟩

/-- What is no storing and no clearing leaves the last outcome. -/
lemma last_apply {o : Op} (harm : ∀ c, o ≠ .arm c) (hclear : o ≠ .clear) :
    (v.apply o).last = v.last := by
  cases o with
  | arm c => exact absurd rfl (harm c)
  | take => exact last_take v
  | settle => exact last_settle v
  | clear => exact absurd rfl hclear

lemma last_replay_of_lastArmed (h : LastArmed ops b) : (v.replay ops).last = b := by
  obtain ⟨before, after, rfl, harm, hclear⟩ := h
  induction after using List.reverseRecOn with
  | nil =>
    rw [replay_concat]
    rfl
  | append_singleton after o ih =>
    simp only [List.mem_append, List.mem_singleton, not_or] at harm hclear
    rw [← List.cons_append, ← List.append_assoc, replay_concat,
      last_apply (fun c ho => (harm c).2 ho.symm) (fun ho => hclear.2 ho.symm)]
    exact ih (fun c => (harm c).1) hclear.1

lemma LastArmed.concat (h : LastArmed ops b) {o : Op} (harm : ∀ c, o ≠ .arm c)
    (hclear : o ≠ .clear) : LastArmed (ops ++ [o]) b := by
  obtain ⟨before, after, rfl, ha, hc⟩ := h
  refine ⟨before, after ++ [o], by simp, fun c hmem => ?_, fun hmem => ?_⟩
  · rcases List.mem_append.1 hmem with hmem | hmem
    · exact ha c hmem
    · exact harm c (List.mem_singleton.1 hmem).symm
  · rcases List.mem_append.1 hmem with hmem | hmem
    · exact hc hmem
    · exact hclear (List.mem_singleton.1 hmem).symm

/-- From the beginning, only storing makes the last outcome true. -/
lemma lastArmed_of_last (h : (replay {} ops).last = true) : LastArmed ops true := by
  induction ops using List.reverseRecOn with
  | nil => cases h
  | append_singleton ops o ih =>
    rw [replay_concat] at h
    cases o with
    | arm c =>
      obtain rfl : c = true := h
      exact ⟨ops, [], rfl, by simp, by simp⟩
    | take =>
      rw [last_apply (by simp) (by simp)] at h
      exact (ih h).concat (by simp) (by simp)
    | settle =>
      rw [last_apply (by simp) (by simp)] at h
      exact (ih h).concat (by simp) (by simp)
    | clear => cases h

/-- **A history decides what is left of the outcomes.** What can be consumed, whether anything can
be, and the last outcome all depend on the last storing and on what came after it. -/
theorem history_decides (ops : List Op) :
    (∀ b, (replay {} ops).take.1 = some b ↔ Pending ops b) ∧
      ((replay {} ops).take.1 = none ↔ ∀ b, ¬ Pending ops b) ∧
      ((replay {} ops).available = true ↔ ∃ b, Pending ops b) ∧
      (∀ b, LastArmed ops b → (replay {} ops).last = b) ∧
      ((∀ b, ¬ LastArmed ops b) → (replay {} ops).last = false) := by
  have hsome : ∀ b, (replay {} ops).take.1 = some b ↔ Pending ops b :=
    fun b => take_replay_eq_some_iff.trans pending_iff.symm
  have havailable : (replay {} ops).available = true ↔ ∃ b, Pending ops b := by
    simp only [← hsome, take_eq_some_iff, available, Bool.not_eq_true']
    exact ⟨fun h => ⟨_, h, rfl⟩, fun ⟨_, h, _⟩ => h⟩
  refine ⟨hsome, ?_, havailable, fun b h => last_replay_of_lastArmed h, fun h => ?_⟩
  · rw [take_eq_none_iff, ← not_exists, ← havailable]
    simp [available]
  · exact Bool.eq_false_iff.2 fun hlast => h true (lastArmed_of_last hlast)

end Courseware.Verdict
