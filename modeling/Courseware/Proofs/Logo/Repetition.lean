import Courseware.Proofs.Command.Composition
import Courseware.Proofs.Machine.Charging

/-!
Repeated blocks pay for every pass, so however large the count is, a repetition is over after
as many passes as there are commands left.
-/

namespace Courseware.Logo

open Exec

variable {enter : Text → Exec Directive} {env : Environment} {m m' : Machine}

lemma used_of_charge (h : charge env m = .ok () m') : m'.used = m.used + 1 := by
  unfold charge at h
  split at h
  · cases h
  · cases h
    rfl

/-- A command that is counted is counted first. -/
lemma runAll_counted {s : Sentence} (hs : s.isCounted = true) (rest : List Sentence) :
    runAll enter (s :: rest) true = (charge >>= fun _ => runAll enter (s :: rest) false) := by
  rw [runAll, runAll, hs]
  rfl

/-- Commands of a block that lead to what follows it have been paid for. -/
lemma used_lt_of_runAll (henter : ∀ t, Composed (enter t)) {s : Sentence} {rest : List Sentence}
    (h : runAll enter (s :: rest) true env m = .ok .next m') : m.used < m'.used := by
  by_cases hs : s.isCounted = true
  · rw [runAll_counted hs] at h
    obtain ⟨_, n, hc, hr⟩ := ok_of_bind h
    have hn := used_of_charge hc
    have hle := (composed_runAll henter (s :: rest) false).used_le env n
    rw [hr, final_ok] at hle
    omega
  · -- a command that is not counted fails
    cases s with
    | stray e =>
      rw [runAll, Sentence.run] at h
      cases h
    | _ => exact absurd rfl hs

/-- **No pass is free**, not even one over an empty block. -/
theorem used_lt_of_pass (henter : ∀ t, Composed (enter t)) {body : List Sentence} {i : Nat}
    (h : pass enter body i env m = .ok .next m') : m.used < m'.used := by
  have hset : ∀ {n n' : Machine} {u : Unit}, Exec.setVariable "REPCOUNT".toList
      (.integer (Int64.ofNat i)) env n = .ok u n' → n'.used = n.used := by
    intro n n' u hn
    cases hn
    rfl
  cases body with
  | nil =>
    obtain ⟨_, n, hc, hr⟩ := ok_of_bind h
    obtain ⟨_, n', hv, hb⟩ := ok_of_bind hr
    rw [runAll] at hb
    cases hb
    have hn := used_of_charge hc
    have hn' := hset hv
    omega
  | cons s rest =>
    obtain ⟨_, n, hv, hb⟩ := ok_of_bind h
    have hn := hset hv
    have hlt := used_lt_of_runAll henter hb
    omega

/-- **A repetition ends when the commands are used up.** Any count above the number of commands
left leads to the same. -/
theorem repeatFrom_min (henter : ∀ t, Composed (enter t)) (body : List Sentence) {left k : Nat}
    (i : Nat) (hm : m.used ≤ env.settings.maxCommands)
    (hk : env.settings.maxCommands - m.used < k) :
    repeatFrom (pass enter body) (min left k) i env m =
      repeatFrom (pass enter body) left i env m := by
  induction left generalizing k i m with
  | zero => rw [Nat.zero_min]
  | succ left ih =>
    obtain ⟨k, rfl⟩ : ∃ k', k = k' + 1 := ⟨k - 1, by omega⟩
    rw [Nat.succ_min_succ, repeatFrom, repeatFrom]
    cases hr : pass enter body i env m with
    | error e n => rw [bind_of_error hr, bind_of_error hr]
    | ok d n =>
      rw [bind_of_ok hr, bind_of_ok hr]
      cases d with
      | next =>
        have hlt := used_lt_of_pass henter hr
        have hle := (composed_pass (composed_runAll henter body true) i).used_le_limit hm
        rw [hr, final_ok] at hle
        exact ih (i + 1) hle (by omega)
      | _ => rfl

end Courseware.Logo
