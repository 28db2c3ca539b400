import Courseware.Proofs.Machine.Composition

/-!
What is seen of a machine when the debugger is left out of it.

The debugger, the records of breakpoints and the subscribers' own state are not seen by commands,
so computations lead to machines that look alike from machines that look alike. If subscribers
only listen, computations do not change the debugger either.
-/

namespace Courseware

/-! ### Events -/

namespace Bus

/-- The subscribers as they are listed, without how they react. -/
def listed (b : Bus) : Bus :=
  { b with subscribers := b.subscribers.map fun s =>
      { s with react := fun _ _ => .done, received := 0 } }

lemma listed_listed (b : Bus) : b.listed.listed = b.listed := by
  simp [listed]

lemma listed_emit (b : Bus) (e : Event) : (b.emit e).2.listed = b.listed := by
  simp only [emit, listed, List.map_map]
  congr 1
  refine List.map_congr_left fun s _ => ?_
  simp only [Function.comp_apply]
  split <;> rfl

lemma receivers_listed (b : Bus) (e : Event) :
    ((b.listed.emit e).1.map Prod.fst) = ((b.emit e).1.map Prod.fst) := by
  simp [emit, receivers, listed, List.filter_map, Function.comp_def]

/-- No subscriber acts on the debugger. -/
def Passive (b : Bus) : Prop := ∀ s ∈ b.subscribers, ∀ n e a, s.react n e ≠ .act a

lemma passive_emit {b : Bus} (h : b.Passive) (e : Event) : (b.emit e).2.Passive := by
  intro s hs n e' a
  simp only [emit, List.mem_map] at hs
  obtain ⟨s', hs', rfl⟩ := hs
  have hreact := h s' hs' n e' a
  split <;> exact hreact

lemma passive_reactions {b : Bus} (h : b.Passive) {e : Event} {r : Nat × Reaction}
    (hr : r ∈ (b.emit e).1) (d : Debugger) : Machine.react d r.2 = d := by
  simp only [emit, receivers, List.mem_map, List.mem_filter] at hr
  obtain ⟨s, ⟨hs, -⟩, rfl⟩ := hr
  have hreact := h s hs s.received e
  dsimp only
  cases hx : s.react s.received e with
  | act a => exact absurd hx (hreact a)
  | _ => rfl

end Bus

/-- Records of breakpoints. -/
def Entry.isBreak : Entry → Bool
  | .event (.breakpointHit _) _ => true
  | _ => false

namespace Machine

/-- What is seen of a machine without the debugger. -/
def seen (m : Machine) : Machine :=
  { m with
    bus := m.bus.listed
    debugger := {}
    log := m.log.filter (!·.isBreak) }

@[simp] lemma seen_seen (m : Machine) : m.seen.seen = m.seen := by
  simp [seen, Bus.listed_listed]

lemma filter_push_filter {p : Entry → Bool} (log : Array Entry) (x : Entry) :
    ((log.filter p).push x).filter p = (log.push x).filter p := by
  rw [Array.filter_push, Array.filter_push, Array.filter_filter]
  simp only [Bool.and_self]

lemma seen_emit_eq (m : Machine) (e : Event) :
    (m.emit e).seen =
      { m.seen with
        log := (m.log.push (.event e ((m.bus.emit e).1.map Prod.fst))).filter (!·.isBreak) } := by
  unfold emit seen
  dsimp only
  rw [Bus.listed_emit]

/-- An event looks alike from machines that look alike. -/
lemma seen_emit (m : Machine) (e : Event) : (m.emit e).seen = (m.seen.emit e).seen := by
  rw [seen_emit_eq, seen_emit_eq, seen_seen]
  have hlog : m.seen.log = m.log.filter (!·.isBreak) := rfl
  have hbus : m.seen.bus = m.bus.listed := rfl
  rw [hlog, hbus, Bus.receivers_listed, filter_push_filter]

/-- Breakpoints are not seen. -/
lemma seen_breakpointHit (m : Machine) (i : Nat) : (m.emit (.breakpointHit i)).seen = m.seen := by
  rw [seen_emit_eq, Array.filter_push]
  rfl

lemma debugger_emit {m : Machine} (h : m.bus.Passive) (e : Event) :
    (m.emit e).debugger = m.debugger := by
  have hfold : ∀ (rs : List (Nat × Reaction)) (d : Debugger),
      (∀ r ∈ rs, ∀ d, Machine.react d r.2 = d) → rs.foldl (fun d r => react d r.2) d = d := by
    intro rs
    induction rs with
    | nil => exact fun _ _ => rfl
    | cons r rs ih =>
      intro d hr
      rw [List.foldl_cons, hr r List.mem_cons_self]
      exact ih d fun r' hr' => hr r' (List.mem_cons_of_mem _ hr')
  exact hfold _ _ fun r hr => Bus.passive_reactions h hr

lemma seen_setVariable (m : Machine) (name : Text) (v : Value) :
    (m.setVariable name v).seen = (m.seen.setVariable name v).seen :=
  seen_emit { m with vars := m.vars.set name v } _

/-- What the host is asked is seen. -/
lemma seen_asked (m : Machine) {x : Entry} (hx : x.isBreak = false) (h : Host) (b : Bool) :
    { m with host := h, log := if b then m.log.push x else m.log }.seen =
      { m.seen with host := h, log := if b then m.seen.log.push x else m.seen.log }.seen := by
  have hlog : (if b then m.log.push x else m.log).filter (!·.isBreak) =
      if b then m.seen.log.push x else m.seen.log := by
    cases b with
    | true =>
      refine Array.filter_push.trans ?_
      rw [hx]
      rfl
    | false => rfl
  have hm : { m with host := h, log := if b then m.log.push x else m.log }.seen =
      { m.seen with host := h, log := if b then m.seen.log.push x else m.seen.log } := by
    rw [← hlog]
    rfl
  rw [← hm, seen_seen]

end Machine

/-! ### Computations -/

namespace Exec

variable {α : Type} {x : Exec α}

/-- What is seen of a result. -/
def look : EStateM.Result ExecError Machine α → EStateM.Result ExecError Machine α
  | .ok a m => .ok a m.seen
  | .error e m => .error e m.seen

lemma of_look_ok {r : EStateM.Result ExecError Machine α} {a : α} {m : Machine}
    (h : look r = .ok a m) : ∃ n, r = .ok a n ∧ n.seen = m := by
  cases r with
  | ok a' n =>
    obtain ⟨rfl, hn⟩ := EStateM.Result.ok.inj h
    exact ⟨n, rfl, hn⟩
  | error e n => cases h

lemma of_look_error {r : EStateM.Result ExecError Machine α} {e : ExecError} {m : Machine}
    (h : look r = .error e m) : ∃ n, r = .error e n ∧ n.seen = m := by
  cases r with
  | ok a n => cases h
  | error e' n =>
    obtain ⟨rfl, hn⟩ := EStateM.Result.error.inj h
    exact ⟨n, rfl, hn⟩

lemma look_finish {r r' : EStateM.Result ExecError Machine α} (h : look r = look r')
    {g : Option α → Machine → Machine} {u : ExecError → ExecError}
    (hg : ∀ o (n n' : Machine), n.seen = n'.seen → (g o n).seen = (g o n').seen) :
    look (finish g u r) = look (finish g u r') := by
  cases r with
  | ok a n =>
    obtain ⟨n', rfl, hn⟩ := of_look_ok h.symm
    exact congrArg (EStateM.Result.ok a) (hg (some a) n n' hn.symm)
  | error e n =>
    obtain ⟨n', rfl, hn⟩ := of_look_error h.symm
    exact congrArg (EStateM.Result.error (u e)) (hg none n n' hn.symm)

/-- **Commands do not see the debugger.** -/
theorem Composed.look_seen (hx : Composed x) (env : Environment) (m : Machine) :
    look (x env m) = look (x env m.seen) := by
  induction hx generalizing m with
  | pure a => exact congrArg (EStateM.Result.ok a) m.seen_seen.symm
  | fail e h => exact congrArg (EStateM.Result.error e) m.seen_seen.symm
  | observe f => exact congrArg (EStateM.Result.ok (f m.view)) m.seen_seen.symm
  | consult f => exact congrArg (EStateM.Result.ok _) m.seen_seen.symm
  | adjust f =>
    exact congrArg (EStateM.Result.ok ()) (m.setControl (f m.control)).seen_seen.symm
  | setVariable name v => exact congrArg (EStateM.Result.ok ()) (m.seen_setVariable name v)
  | print t => exact congrArg (EStateM.Result.ok ()) (m.seen_emit (.text t))
  | charge =>
    -- neither the count of commands nor what expressions read is hidden
    have hused : m.seen.used = m.used := rfl
    unfold Exec.charge
    rw [hused]
    split
    · exact congrArg (EStateM.Result.error _) m.seen_seen.symm
    · exact congrArg (EStateM.Result.ok ()) (Machine.seen_seen { m with used := m.used + 1 }).symm
  | evaluate t =>
    have hvars : m.seen.vars = m.vars := rfl
    have hrandom : m.seen.random = m.random := rfl
    unfold Exec.evaluate
    rw [hvars, hrandom]
    split
    · next v g _ =>
      exact congrArg (EStateM.Result.ok v) (Machine.seen_seen { m with random := g }).symm
    · next e g _ =>
      exact congrArg (EStateM.Result.error _) (Machine.seen_seen { m with random := g }).symm
  | readLine prompt => exact congrArg (EStateM.Result.ok _) (m.seen_asked rfl _ _)
  | request r =>
    -- the host is asked in the same words
    have hhost : m.seen.host = m.host := rfl
    have hasked := m.seen_asked (x := .request r) rfl (m.host.call r).2
      (m.host.channels.contains r.subsystem)
    unfold Exec.request
    dsimp only
    rw [hhost]
    split
    · next v _ => exact congrArg (EStateM.Result.ok v) hasked
    · next e _ => exact congrArg (EStateM.Result.error (ExecError.host e)) hasked
  | @bind _ _ x f _ _ ihx ihf =>
    have h := (ihx m).symm
    cases hr : x env m with
    | ok a n =>
      rw [hr] at h
      obtain ⟨n', hr', hn⟩ := of_look_ok h
      rw [bind_of_ok hr, bind_of_ok hr', ihf a n, ← hn, ← ihf a n']
    | error e n =>
      rw [hr] at h
      obtain ⟨n', hr', hn⟩ := of_look_error h
      rw [bind_of_error hr, bind_of_error hr']
      exact congrArg (EStateM.Result.error e) hn.symm
  | @fatally _ x _ ih =>
    -- what is done at the end of a part does not touch the debugger
    rw [fatally_eq, fatally_eq]
    exact look_finish (ih m) fun _ _ _ hn => hn
  | @deeper _ x _ ih =>
    rw [deeper_eq, deeper_eq]
    exact look_finish (ih { m with callDepth := m.callDepth + 1 }) fun _ _ _ hn =>
      congrArg (fun k : Machine => { k with callDepth := k.callDepth - 1 }) hn
  | @closing _ x f _ ih =>
    rw [closing_eq, closing_eq]
    exact look_finish (ih m) fun o _ _ hn =>
      congrArg (fun k : Machine => k.setControl (f o k.control)) hn

/-- Computations that look alike from their beginning look alike at their end. -/
lemma Composed.look_eq (hx : Composed x) (env : Environment) {m m' : Machine}
    (h : m.seen = m'.seen) : look (x env m) = look (x env m') := by
  rw [hx.look_seen env m, h, ← hx.look_seen env m']

lemma kept_passive (limit : Nat) :
    Kept limit fun m m' => m.bus.Passive → m'.bus.Passive ∧ m'.debugger = m.debugger where
  refl _ h := ⟨h, rfl⟩
  trans h₁ h₂ h :=
    ⟨(h₂ (h₁ h).1).1, (h₂ (h₁ h).1).2.trans (h₁ h).2⟩
  control _ _ h := ⟨h, rfl⟩
  depth _ _ h := ⟨h, rfl⟩
  charge _ _ h := ⟨h, rfl⟩
  setVariable m _ _ h :=
    ⟨Bus.passive_emit h _, Machine.debugger_emit (m := { m with vars := _ }) h _⟩
  print _ _ h := ⟨Bus.passive_emit h _, Machine.debugger_emit h _⟩
  host _ _ h := ⟨h, rfl⟩
  asked _ _ _ h := ⟨h, rfl⟩

/-- **Commands do not change the debugger** if subscribers only listen. -/
theorem Composed.passive (hx : Composed x) (env : Environment) {m : Machine}
    (h : m.bus.Passive) :
    (final (x env m)).bus.Passive ∧ (final (x env m)).debugger = m.debugger :=
  hx.keeps (kept_passive _) m h

end Exec

end Courseware
