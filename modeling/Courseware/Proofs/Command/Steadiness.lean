import Courseware.Proofs.Command.Composition
import Courseware.Proofs.Machine.Confinement
import Courseware.Proofs.Verdict.History

/-!
What commands do to the outcome of the last test.

A test stores its outcome, and a command of PILOT that is carried out unless the test failed
consumes it. No other command touches it.
-/

namespace Courseware

namespace Exec

variable {α β : Type}

/-- Wherever `x` is run, it leaves the verdict as it is. -/
def Steady (x : Exec α) : Prop := ∀ env m, (final (x env m)).verdict = m.verdict

namespace Steady

variable {x : Exec α} {f : α → Exec β}

lemma pure (a : α) : Steady (pure a) := fun _ _ => rfl

lemma fail (e : ExecError) : Steady (fail e : Exec α) := fun _ _ => rfl

lemma misused (e : Misuse) : Steady (misused e : Exec α) := .fail _

lemma bind (hx : Steady x) (hf : ∀ a, Steady (f a)) : Steady (x >>= f) := by
  intro env m
  have h := hx env m
  cases hr : x env m with
  | ok a n =>
    rw [hr] at h
    rw [bind_of_ok hr]
    exact (hf a env n).trans h
  | error e n =>
    rw [hr] at h
    rw [bind_of_error hr]
    exact h

lemma ite {c : Prop} [Decidable c] {x y : Exec α} (hx : c → Steady x) (hy : ¬ c → Steady y) :
    Steady (if c then x else y) := by
  split
  · next h => exact hx h
  · next h => exact hy h

lemma ofQuiet (hx : Quiet x) : Steady x := by
  intro env m
  obtain ⟨g, hg⟩ := hx.control_eq env m
  exact congrArg Control.verdict hg

lemma adjust {g : Control → Control} (hg : ∀ c, (g c).verdict = c.verdict) :
    Steady (adjust g) := fun _ m => hg m.control

lemma charge : Steady charge := by
  intro env m
  unfold Exec.charge
  split <;> rfl

lemma setVariable (name : Text) (v : Value) : Steady (setVariable name v) := fun _ _ => rfl

lemma print (t : Text) : Steady (print t) := fun _ _ => rfl

lemma draw (g : Turtle → Turtle) : Steady (draw g) := fun _ _ => rfl

lemma get {f : Machine → Exec β} (hf : ∀ m, Steady (f m)) : Steady (MonadState.get >>= f) :=
  fun env m => hf m env m

lemma read {f : Environment → Exec β} (hf : ∀ env, Steady (f env)) :
    Steady (MonadReader.read >>= f) := fun env m => hf env env m

lemma enterSubroutine (i : Nat) : Steady (enterSubroutine i) :=
  .read fun env => .bind (.adjust (g := fun c =>
    { c with returns := (env.index + 1) :: c.returns }) fun _ => rfl) fun _ => .pure _

lemma leaveSubroutine (command expected : String) :
    Steady (leaveSubroutine command expected) := by
  refine .get fun m => ?_
  split
  · exact .fail _
  · next i rest _ =>
    exact .bind (.adjust (g := fun c => { c with returns := rest }) fun _ => rfl) fun _ => .pure _

end Steady

end Exec

open Exec

/-! ### PILOT -/

namespace Pilot

/-- The truth that a test stores: that of its condition, or false if it has none. -/
def outcome (t : Text) (env : Environment) (m : Machine) : Bool :=
  match condition t env m with
  | .ok b _ => b
  | .error _ _ => false

/-- A test stores its outcome. -/
lemma verdict_test (t : Text) (env : Environment) (m : Machine) :
    (final (test t env m)).verdict = m.verdict.arm (outcome t env m) := by
  unfold test outcome
  cases condition t env m <;> rfl

lemma steady_jump (label : Text) : Steady (jump label) :=
  .ite (fun _ => .bind (.misused _) fun _ => .bind (.ofQuiet (.target label)) fun _ => .pure _)
    fun _ => .bind (.ofQuiet (.target label)) fun _ => .pure _

lemma steady_assign (t : Text) : Steady (assign t) := by
  unfold assign
  split
  · exact .misused _
  · exact .bind (.ofQuiet (quiet_assigned _)) fun v => .bind (.setVariable _ v) fun _ => .pure _

lemma steady_accept (name : Text) : Steady (accept name) := by
  refine .bind (.ofQuiet (.readLine _)) fun line => ?_
  split
  · exact .fail _
  · exact .bind (.setVariable _ _) fun _ => .pure _

lemma steady_request (t : Text) : Steady (do
    match Request.parse? (← Exec.interpolate t) with
    | none => misused .noRequest
    | some r =>
      Exec.setVariable "RESULT".toList (← Exec.request r)
      return Directive.next) := by
  refine .bind (.ofQuiet (.interpolate t)) fun u => ?_
  split
  · exact .misused _
  · next r _ =>
    exact .bind (.ofQuiet (.request r)) fun v => .bind (.setVariable _ v) fun _ => .pure _

lemma steady_call (t : Text) : Steady (call t) := by
  have hreq := steady_request t
  refine .ite (fun _ => .bind (.misused _) fun _ => ?_) fun _ => ?_
  all_goals
    refine .bind (.ofQuiet .program) fun p => ?_
    split
    · exact .enterSubroutine _
    · exact .ite (fun _ => .bind (.fail _) fun _ => hreq) fun _ => hreq

/-- A command that is carried out unless the last test failed consumes the outcome first. -/
def Command.consumes : Command → Bool
  | .type .unlessFailed _ => true
  | .jump .unlessFailed _ => true
  | _ => false

/-- What a command does to the verdict. -/
def Command.op? (c : Command) (env : Environment) (m : Machine) : Option Verdict.Op :=
  match c with
  | .test t => some (.arm (outcome t env m))
  | c => if c.consumes then some .take else none

namespace Command

variable {c : Command} {env : Environment} {m : Machine}

lemma op?_eq_arm_iff {b : Bool} :
    c.op? env m = some (.arm b) ↔ ∃ t, c = .test t ∧ outcome t env m = b := by
  cases c with
  | test t => simp [op?]
  | _ => simp [op?]

lemma op?_eq_take_iff : c.op? env m = some .take ↔ c.consumes = true := by
  cases c with
  | test t => simp [op?, consumes]
  | _ => simp [op?]

lemma eq_of_op? {o : Verdict.Op} (h : c.op? env m = some o) : o = .take ∨ ∃ b, o = .arm b := by
  unfold op? at h
  split at h
  · cases h
    exact .inr ⟨_, rfl⟩
  · split at h
    · cases h
      exact .inl rfl
    · cases h

end Command

lemma holds_unlessFailed (env : Environment) (m : Machine) :
    Condition.unlessFailed.holds env m =
      .ok (decide (m.verdict.take.1 ≠ some false)) { m with verdict := m.verdict.take.2 } := rfl

lemma verdict_unlessFailed {f : Bool → Exec Directive} (hf : ∀ b, Steady (f b))
    (env : Environment) (m : Machine) :
    (final ((Condition.unlessFailed.holds >>= f) env m)).verdict = m.verdict.take.2 := by
  rw [bind_of_ok (holds_unlessFailed env m)]
  exact hf _ env _

lemma steady_onLast {f : Bool → Exec Directive} (b : Bool) (hf : ∀ b, Steady (f b)) :
    Steady ((Condition.onLast b).holds >>= f) :=
  .bind (.ofQuiet (.observe fun v => decide (v.control.verdict.last = b))) hf

/-- Only tests and what depends on them touch the verdict. -/
lemma verdict_run (c : Command) (env : Environment) (m : Machine) :
    (final (c.run env m)).verdict = m.verdict.replay (c.op? env m).toList := by
  cases c with
  | type c t =>
    have htyped : ∀ b : Bool, Steady (do
        if b then print (← interpolate t)
        return Directive.next) := fun b =>
      .ite (fun _ => .bind (.ofQuiet (.interpolate t)) fun u => .bind (.print u) fun _ => .pure _)
        fun _ => .pure _
    cases c with
    -- `unlessFailed` consumes the outcome, `onLast` only reads it
    | unlessFailed => exact verdict_unlessFailed htyped env m
    | onLast b => exact steady_onLast b htyped env m
  | jump c t =>
    have hjump : ∀ b : Bool, Steady (if b then Pilot.jump t else pure Directive.next) := fun b =>
      .ite (fun _ => steady_jump t) fun _ => .pure _
    cases c with
    | unlessFailed => exact verdict_unlessFailed hjump env m
    | onLast b => exact steady_onLast b hjump env m
  | test t => exact verdict_test t env m
  | label => rfl
  | assign t => exact steady_assign t env m
  | comeBack => exact Steady.leaveSubroutine _ _ env m
  | accept name => exact steady_accept name env m
  | call t => exact steady_call t env m
  | finish =>
    exact Steady.get (fun m => .ite (fun _ => .pure _) fun _ => .leaveSubroutine _ _) env m
  | unknown t => rfl

end Pilot

/-! ### BASIC -/

namespace Basic

lemma steady_forLoop (name start limit : Text) (step : Option Text) :
    Steady (forLoop name start limit step) := by
  have henter : ∀ first last by_ : Value, Steady (do
      let index := (← read).index
      modify fun m => { m with
        loops := ⟨Text.canonical name, last, by_, index + 1⟩ ::
          outerLoops (Text.canonical name) m.loops }
      Exec.setVariable (Text.canonical name) first
      return Directive.next) := fun first last by_ =>
    .read fun env => .bind (.adjust (g := fun c => { c with
      loops := ⟨Text.canonical name, last, by_, env.index + 1⟩ ::
        outerLoops (Text.canonical name) c.loops }) fun _ => rfl) fun _ =>
      .bind (.setVariable _ _) fun _ => .pure _
  refine .bind (.ofQuiet (quiet_loopNumber start)) fun first =>
    .bind (.ofQuiet (quiet_loopNumber limit)) fun last => ?_
  cases step with
  | some t => exact .bind (.ofQuiet (quiet_loopNumber t)) fun by_ => henter first last by_
  | none => exact .bind (.pure _) fun by_ => henter first last by_

lemma steady_next (name : Text) : Steady (next name) := by
  refine .get fun m => ?_
  dsimp only
  split
  · exact .fail _
  · next f outer _ =>
    refine .bind (.adjust (g := fun c => { c with loops := _ }) fun _ => rfl) fun _ =>
      .bind (.ofQuiet (.valueOf? f.var)) fun v => ?_
    split
    · exact .fail _
    · refine .bind (.ofQuiet (.fatally (.ofEval _))) fun w => .bind (.setVariable _ w) fun _ => ?_
      split
      · exact .fail _
      · exact .pure _
      · exact .bind (.adjust (g := fun c => { c with loops := outer }) fun _ => rfl) fun _ =>
          .pure _

lemma steady_readData (names : List Text) : Steady (readData names) := by
  induction names with
  | nil => exact .pure _
  | cons name names ih =>
    refine .bind (.ofQuiet .program) fun p => .get fun m => ?_
    split
    · exact .fail _
    · exact .bind (.adjust (g := fun c => { c with dataRead := c.dataRead + 1 }) fun _ => rfl)
        fun _ => .bind (.setVariable _ _) fun _ => ih

lemma steady_randomize (t : Text) : Steady (randomize t) := by
  have hseed : ∀ seed : Option UInt64, Steady (do
      modify fun m => { m with random := m.random.reseed seed }
      return Directive.next) := fun seed =>
    .bind (.adjust (g := fun c => { c with random := c.random.reseed seed }) fun _ => rfl)
      fun _ => .pure _
  refine .ite (fun _ => .bind (.pure _) hseed) fun _ => .bind (.ofQuiet (.evaluate t)) fun v => ?_
  split
  · exact .bind (.pure _) hseed
  · exact .bind (.misused _) hseed

lemma steady_color (t : Text) : Steady (color t) := by
  refine .bind (.ofQuiet (.evaluate t)) fun v => ?_
  dsimp only
  split
  · exact .bind (.draw _) fun _ => .pure _
  · split
    · exact .bind (.draw _) fun _ => .pure _
    · exact .bind (.misused _) fun _ => .pure _

lemma steady_run (s : Statement) : Steady s.run := by
  cases s with
  | assign name c =>
    exact .bind (.ofQuiet (quiet_value c)) fun v => .bind (.setVariable name v) fun _ => .pure _
  | print items =>
    exact .bind (.ofQuiet (quiet_printed items)) fun t => .bind (.print t) fun _ => .pure _
  | input prompt name =>
    refine .bind (.ofQuiet (.interpolate prompt)) fun u => .bind (.ofQuiet (.readLine u))
      fun line => ?_
    split
    · exact .fail _
    · exact .bind (.setVariable _ _) fun _ => .pure _
  | goto t => exact .bind (.ofQuiet (quiet_jumpTarget t)) fun i => .pure _
  | gosub t => exact .bind (.ofQuiet (quiet_jumpTarget t)) fun i => .enterSubroutine i
  | comeBack => exact .leaveSubroutine _ _
  | forLoop name start limit step => exact steady_forLoop name start limit step
  | next name => exact steady_next name
  | finish => exact .pure _
  | remark => exact .pure _
  | read names => exact steady_readData names
  | restore =>
    exact .bind (.adjust (g := fun c => { c with dataRead := 0 }) fun _ => rfl) fun _ => .pure _
  | randomize t => exact steady_randomize t
  | swap a b =>
    exact .bind (.ofQuiet (quiet_known a)) fun v => .bind (.ofQuiet (quiet_known b)) fun w =>
      .bind (.setVariable a w) fun _ => .bind (.setVariable b v) fun _ => .pure _
  | color t => exact steady_color t
  | clearScreen => exact .bind (.draw _) fun _ => .pure _
  | faulty e => exact .fail e

end Basic

/-! ### Logo -/

namespace Logo

lemma steady_setColor (v : Value) : Steady (do
    match v with
    | .text name => draw (·.setColor (Text.lower name))
    | v =>
      match v.toInteger? with
      | some n => draw (·.setColorIndex n)
      | none => misused .paletteIndex) := by
  split
  · exact .draw _
  · split
    · exact .draw _
    · exact .misused _

lemma steady_color (t : Text) : Steady (color t) := by
  unfold color
  dsimp only
  split
  · exact .bind (.ofQuiet (quiet_resolve _)) steady_setColor
  · split
    · exact .bind (.pure _) steady_setColor
    · exact .bind (.pure _) steady_setColor

lemma steady_skipDefinition (name : Option Text) : Steady (skipDefinition name) := by
  refine .bind (.ofQuiet .program) fun p => ?_
  split
  · exact .pure _
  · exact .pure _

/-- A simple command may only touch the verdict by calling a procedure. -/
lemma steady_simple {s : Simple} (hs : ∀ verb p inputs, s ≠ .call verb p inputs)
    (enter : Text → Exec Directive) : Steady (s.run enter) := by
  cases s with
  | motion verb m inputs =>
    exact .bind (.ofQuiet (quiet_numbers verb inputs)) fun xs => .bind (.draw _) fun _ => .pure _
  | gesture g => exact .bind (.draw _) fun _ => .pure _
  | color input => exact .bind (steady_color input) fun _ => .pure _
  | print input =>
    exact .bind (.ofQuiet (quiet_printed input)) fun t => .bind (.print t) fun _ => .pure _
  | make name input =>
    exact .bind (.ofQuiet (quiet_made input)) fun v => .bind (.setVariable name v) fun _ => .pure _
  | stop => exact .pure _
  | define name => exact steady_skipDefinition name
  | call verb p inputs => exact absurd rfl (hs verb p inputs)
  | unknown verb => exact .fail _
  | faulty m => exact .misused m

end Logo

end Courseware
