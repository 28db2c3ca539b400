import Courseware.Proofs.Machine.Composition

/-!
How many commands are counted while a computation runs.

The count never falls and never passes the limit, and this holds not only at the end of a
computation but wherever one computation runs inside another. A failure for running too long is
raised at the limit only, and it goes through to the outside from any depth.
-/

namespace Courseware.Exec

variable {α β : Type} {env : Environment} {m m' n n' : Machine}

/-! ### The count -/

lemma kept_used (limit : Nat) :
    Kept limit fun m m' => m.used ≤ m'.used ∧ (m.used ≤ limit → m'.used ≤ limit) where
  refl _ := ⟨Nat.le_refl _, id⟩
  trans h₁ h₂ := ⟨Nat.le_trans h₁.1 h₂.1, h₂.2 ∘ h₁.2⟩
  control _ _ := ⟨Nat.le_refl _, id⟩
  depth _ _ := ⟨Nat.le_refl _, id⟩
  charge _ h := ⟨Nat.le_succ _, fun _ => h⟩
  setVariable _ _ _ := ⟨Nat.le_refl _, id⟩
  print _ _ := ⟨Nat.le_refl _, id⟩
  host _ _ := ⟨Nat.le_refl _, id⟩
  asked _ _ _ := ⟨Nat.le_refl _, id⟩

namespace Composed

variable {x : Exec α}

lemma used_le (hx : Composed x) (env : Environment) (m : Machine) :
    m.used ≤ (final (x env m)).used :=
  (hx.keeps (kept_used _) m).1

lemma used_le_limit (hx : Composed x) (h : m.used ≤ env.settings.maxCommands) :
    (final (x env m)).used ≤ env.settings.maxCommands :=
  (hx.keeps (kept_used _) m).2 h

/-- **Running too long is found at the limit.** -/
theorem limit_of_runaway (hx : Composed x) {l : Nat} (h : x env m = .error (.runaway l) m') :
    l = env.settings.maxCommands ∧ env.settings.maxCommands ≤ m'.used := by
  induction hx generalizing m m' with
  | pure a => cases h
  | observe f => cases h
  | consult f => cases h
  | adjust f => cases h
  | setVariable name v => cases h
  | print t => cases h
  | readLine prompt => cases h
  | fail e he => cases h; exact absurd rfl (he l)
  | @bind _ _ x f _ _ ihx ihf =>
    cases hr : x env m with
    | ok a m₁ =>
      rw [bind_of_ok hr] at h
      exact ihf a h
    | error e m₁ =>
      rw [bind_of_error hr] at h
      cases h
      exact ihx hr
  | @fatally _ x _ ih =>
    unfold Exec.fatally at h
    split at h
    · cases h
    · next e m₁ hr =>
      -- nothing but a failed expression is changed
      cases e <;> cases h
      exact ih hr
  | @deeper _ x _ ih =>
    unfold Exec.deeper at h
    split at h
    · cases h
    · next e m₁ hr =>
      cases h
      have hl := ih hr
      exact hl
  | @closing _ x f _ ih =>
    unfold Exec.closing at h
    split at h
    · cases h
    · next e m₁ hr =>
      cases h
      have hl := ih hr
      exact hl
  | charge =>
    unfold Exec.charge at h
    split at h
    · -- the only place where this failure arises
      next hle =>
      cases h
      exact ⟨rfl, hle⟩
    · cases h
  | evaluate t =>
    unfold Exec.evaluate at h
    split at h <;> cases h
  | request r =>
    unfold Exec.request at h
    dsimp only at h
    split at h <;> cases h

end Composed

/-! ### Computations inside others -/

/-- `Part env x m y n` says that while `x` runs from the machine `m`, `y` is run from `n`.
Computations are taken apart in every way into compositions of operations, so that every
machine between two operations is among those seen here. -/
inductive Part (env : Environment) :
    {α β : Type} → Exec α → Machine → Exec β → Machine → Prop where
  | whole {α : Type} {x : Exec α} {m : Machine} (hx : Composed x) : Part env x m x m
  | first {α β γ : Type} {x : Exec α} {f : α → Exec β} {y : Exec γ} {m n : Machine}
      (hf : ∀ a, Composed (f a)) (h : Part env x m y n) : Part env (x >>= f) m y n
  | second {α β γ : Type} {x : Exec α} {f : α → Exec β} {y : Exec γ} {m m' n : Machine} {a : α}
      (hx : Composed x) (hf : ∀ a, Composed (f a)) (hr : x env m = .ok a m')
      (h : Part env (f a) m' y n) : Part env (x >>= f) m y n
  | fatally {α β : Type} {x : Exec α} {y : Exec β} {m n : Machine} (h : Part env x m y n) :
      Part env (fatally x) m y n
  | deeper {α β : Type} {x : Exec α} {y : Exec β} {m n : Machine}
      (h : Part env x { m with callDepth := m.callDepth + 1 } y n) : Part env (deeper x) m y n
  | closing {α β : Type} {x : Exec α} {y : Exec β} {m n : Machine}
      (f : Option α → Control → Control) (h : Part env x m y n) : Part env (closing x f) m y n

namespace Part

variable {x : Exec α} {y : Exec β}

lemma composed (h : Part env x m y n) : Composed y := by
  induction h with
  | whole hx => exact hx
  | first _ _ ih => exact ih
  | second _ _ _ _ ih => exact ih
  | fatally _ ih => exact ih
  | deeper _ ih => exact ih
  | closing _ _ ih => exact ih

/-- A part begins within the limit if the whole does. -/
lemma used_le_limit (h : Part env x m y n) (hm : m.used ≤ env.settings.maxCommands) :
    n.used ≤ env.settings.maxCommands := by
  induction h with
  | whole _ => exact hm
  | first _ _ ih => exact ih hm
  | second hx _ hr _ ih =>
    have h := hx.used_le_limit hm
    rw [hr] at h
    exact ih h
  | fatally _ ih => exact ih hm
  | deeper _ ih => exact ih hm
  | closing _ _ ih => exact ih hm

/-- **Running too long is never overlooked.** If some part fails for it, then so does the
whole. -/
theorem runaway (h : Part env x m y n) {l : Nat} (hy : y env n = .error (.runaway l) n') :
    ∃ m', x env m = .error (.runaway l) m' := by
  induction h with
  | whole _ => exact ⟨n', hy⟩
  | first _ _ ih =>
    obtain ⟨m', hr⟩ := ih hy
    exact ⟨m', bind_of_error hr⟩
  | second _ _ hr _ ih =>
    obtain ⟨m', hf⟩ := ih hy
    exact ⟨m', (bind_of_ok hr).trans hf⟩
  | fatally _ ih =>
    obtain ⟨m', hr⟩ := ih hy
    exact ⟨m', by simp only [Exec.fatally, hr, ExecError.toFatal]⟩
  | deeper _ ih =>
    obtain ⟨m', hr⟩ := ih hy
    exact ⟨{ m' with callDepth := m'.callDepth - 1 }, by simp only [Exec.deeper, hr]⟩
  | closing f _ ih =>
    obtain ⟨m', hr⟩ := ih hy
    exact ⟨m'.setControl (f none m'.control), by simp only [Exec.closing, hr]⟩

end Part

end Courseware.Exec
