import Courseware.Command.Execution
import Courseware.Proofs.Machine.Composition

/-!
Every command is put together from the operations of the machine.
-/

namespace Courseware

open Exec

/-! ### PILOT -/

namespace Pilot

lemma composed_holds (c : Condition) : Composed c.holds := by
  cases c with
  | unlessFailed =>
    refine .get (fun m => ?_) fun m m' h => ?_
    · exact .bind (.adjust fun c => { c with verdict := m.verdict.take.2 }) fun _ => .pure _
    · have hv : m.verdict = m'.verdict := congrArg (·.control.verdict) h
      rw [hv]
  | onLast b => exact .observe fun v => decide (v.control.verdict.last = b)

/-- A test closes with its outcome, which is false if it fails. -/
lemma test_eq (t : Text) :
    test t = (closing (condition t) (fun b c => { c with verdict := c.verdict.arm (b.getD false) })
      >>= fun _ => pure .next) := by
  funext env m
  cases h : condition t env m with
  | ok b m' =>
    have hc : closing (condition t)
        (fun b c => { c with verdict := c.verdict.arm (b.getD false) }) env m =
          .ok b { m' with verdict := m'.verdict.arm b } := by
      simp [closing, h, Machine.setControl, Machine.control]
    rw [bind_of_ok hc, test, h]
    rfl
  | error e m' =>
    have hc : closing (condition t)
        (fun b c => { c with verdict := c.verdict.arm (b.getD false) }) env m =
          .error e { m' with verdict := m'.verdict.arm false } := by
      simp [closing, h, Machine.setControl, Machine.control]
    rw [bind_of_error hc, test, h]

lemma composed_jump (label : Text) : Composed (jump label) := by
  refine .ite (fun _ => .bind (.misused _) fun _ => ?_) fun _ => ?_
  · exact .bind (.target label) fun i => .pure _
  · exact .bind (.target label) fun i => .pure _

lemma quiet_assigned (t : Text) : Quiet (assigned t) := by
  unfold assigned
  split
  · exact .bind (.interpolate _) fun u => .pure _
  · exact .evaluate t

lemma composed_assign (t : Text) : Composed (assign t) := by
  unfold assign
  split
  · exact .misused _
  · exact .bind (quiet_assigned _).composed fun v => .bind (.setVariable _ v) fun _ => .pure _

lemma composed_accept (name : Text) : Composed (accept name) := by
  refine .bind (.readLine _) fun line => ?_
  split
  · exact .fail _ fun _ h => by cases h
  · exact .bind (.setVariable _ _) fun _ => .pure _

lemma composed_request (t : Text) : Composed (do
    match Request.parse? (← Exec.interpolate t) with
    | none => misused .noRequest
    | some r =>
      Exec.setVariable "RESULT".toList (← Exec.request r)
      return Directive.next) := by
  refine .bind (.interpolate t) fun u => ?_
  split
  · exact .misused _
  · next r _ => exact .bind (.request r) fun v => .bind (.setVariable _ v) fun _ => .pure _

lemma composed_call (t : Text) : Composed (call t) := by
  have hreq := composed_request t
  refine .ite (fun _ => .bind (.misused _) fun _ => ?_) fun _ => ?_
  all_goals
    refine .bind .program fun p => ?_
    split
    · exact .enterSubroutine _
    · exact .ite (fun _ => .bind (.fail _ fun _ h => by cases h) fun _ => hreq) fun _ => hreq

lemma composed_run (c : Command) : Composed c.run := by
  cases c with
  | type c t =>
    refine .bind (composed_holds c) fun b => .ite (fun _ => ?_) fun _ => .pure _
    exact .bind (.interpolate t) fun u => .bind (.print u) fun _ => .pure _
  | test t =>
    rw [Command.run, test_eq]
    exact .bind (.closing _ (.condition t)) fun _ => .pure _
  | jump c t =>
    exact .bind (composed_holds c) fun b => .ite (fun _ => composed_jump t) fun _ => .pure _
  | label => exact .pure _
  | assign t => exact composed_assign t
  | comeBack => exact .leaveSubroutine _ _
  | accept name => exact composed_accept name
  | call t => exact composed_call t
  | finish =>
    refine .get (fun m => .ite (fun _ => .pure _) fun _ => .leaveSubroutine _ _) fun m m' h => ?_
    have hr : m.returns = m'.returns := congrArg (·.control.returns) h
    simp only [hr]
  | unknown t => exact .fail _ fun _ h => by cases h

end Pilot

/-! ### BASIC -/

namespace Basic

lemma quiet_value (c : Content) : Quiet c.value := by
  cases c with
  | literal t => exact .bind (.interpolate t) fun u => .pure _
  | expr t => exact .evaluate t

lemma composed_assign (name : Text) (c : Content) : Composed (assign name c) :=
  .bind (quiet_value c).composed fun v => .bind (.setVariable name v) fun _ => .pure _

lemma quiet_printed (items : List PrintItem) : Quiet (printed items) := by
  induction items with
  | nil => exact .pure _
  | cons i is ih => exact .bind (quiet_value i.content) fun v => .bind ih fun t => .pure _

lemma composed_input (prompt name : Text) : Composed (input prompt name) := by
  refine .bind (.interpolate prompt) fun u => .bind (.readLine u) fun line => ?_
  split
  · exact .fail _ fun _ h => by cases h
  · exact .bind (.setVariable _ _) fun _ => .pure _

lemma quiet_numbered (t : Text) : Quiet (do
    let v ← fatally (Exec.evaluate t)
    match numbered? (← Exec.program) v with
    | some i => return i
    | none => fail (.undefinedLabel v.display)) := by
  refine .bind (.fatally (.evaluate t)) fun v => .bind .program fun p => ?_
  split
  · exact .pure _
  · exact .fail _ fun _ h => by cases h

lemma quiet_jumpTarget (t : Text) : Quiet (jumpTarget t) := by
  have heval := quiet_numbered t
  refine .ite (fun _ => .bind (.misused _) fun _ => ?_) fun _ => ?_
  all_goals
    refine .bind .program fun p => ?_
    split
    · exact .pure _
    · refine .bind (.valueOf? t) fun v => ?_
      exact .ite (fun _ => .bind (.fail _ fun _ h => by cases h) fun _ => heval) fun _ => heval

lemma quiet_loopNumber (t : Text) : Quiet (loopNumber t) := by
  refine .bind (.fatally (.evaluate t)) fun v => .ite (fun _ => .pure _) fun _ => ?_
  exact .fail _ fun _ h => by cases h

lemma composed_forLoop (name start limit : Text) (step : Option Text) :
    Composed (forLoop name start limit step) := by
  have henter : ∀ first last by_ : Value, Composed (do
      let index := (← read).index
      modify fun m => { m with
        loops := ⟨Text.canonical name, last, by_, index + 1⟩ ::
          outerLoops (Text.canonical name) m.loops }
      Exec.setVariable (Text.canonical name) first
      return Directive.next) := by
    intro first last by_
    refine .read (fun env => ?_) fun env env' _ hi _ => by simp only [hi]
    exact .bind (.adjust fun c => { c with
      loops := ⟨Text.canonical name, last, by_, env.index + 1⟩ ::
        outerLoops (Text.canonical name) c.loops }) fun _ =>
      .bind (.setVariable _ _) fun _ => .pure _
  refine .bind (quiet_loopNumber start).composed fun first =>
    .bind (quiet_loopNumber limit).composed fun last => ?_
  cases step with
  | some t => exact .bind (quiet_loopNumber t).composed fun by_ => henter first last by_
  | none => exact .bind (.pure _) fun by_ => henter first last by_

lemma composed_next (name : Text) : Composed (next name) := by
  refine .get (fun m => ?_) fun m m' h => ?_
  · dsimp only
    split
    · exact .fail _ fun _ h => by cases h
    · next f outer hf =>
      refine .bind (.adjust fun c => { c with loops := _ }) fun _ =>
        .bind (.valueOf? f.var) fun v => ?_
      split
      · exact .fail _ fun _ h => by cases h
      · refine .bind (Quiet.fatally (.ofEval _)).composed fun w =>
          .bind (.setVariable _ w) fun _ => ?_
        split
        · exact .fail _ fun _ h => by cases h
        · exact .pure _
        · exact .bind (.adjust fun c => { c with loops := outer }) fun _ => .pure _
  · have hl : m.loops = m'.loops := congrArg (·.control.loops) h
    simp only [hl]

lemma composed_readData (names : List Text) : Composed (readData names) := by
  induction names with
  | nil => exact .pure _
  | cons name names ih =>
    refine .bind .program fun p => .get (fun m => ?_) fun m m' h => ?_
    · split
      · exact .fail _ fun _ h => by cases h
      · exact .bind (.adjust fun c => { c with dataRead := c.dataRead + 1 }) fun _ =>
          .bind (.setVariable _ _) fun _ => ih
    · have hd : m.dataRead = m'.dataRead := congrArg (·.control.dataRead) h
      simp only [hd]

lemma composed_randomize (t : Text) : Composed (randomize t) := by
  have hseed : ∀ seed : Option UInt64, Composed (do
      modify fun m => { m with random := m.random.reseed seed }
      return Directive.next) := fun seed =>
    .bind (.adjust fun c => { c with random := c.random.reseed seed }) fun _ => .pure _
  refine .ite (fun _ => .bind (.pure _) hseed) fun _ => .bind (.evaluate t) fun v => ?_
  split
  · exact .bind (.pure _) hseed
  · exact .bind (.misused _) hseed

lemma quiet_known (name : Text) : Quiet (known name) := by
  refine .bind (.valueOf? name) fun v => ?_
  split
  · exact .pure _
  · exact .fail _ fun _ h => by cases h

lemma composed_swap (a b : Text) : Composed (swap a b) :=
  .bind (quiet_known a).composed fun v => .bind (quiet_known b).composed fun w =>
    .bind (.setVariable a w) fun _ => .bind (.setVariable b v) fun _ => .pure _

lemma composed_color (t : Text) : Composed (color t) := by
  refine .bind (.evaluate t) fun v => ?_
  dsimp only
  split
  · exact .bind (.draw _) fun _ => .pure _
  · split
    · exact .bind (.draw _) fun _ => .pure _
    · exact .bind (.misused _) fun _ => .pure _

/-- No statement stands for running too long. -/
def Statement.Fair (s : Statement) : Prop := ∀ n, s ≠ .faulty (.runaway n)

lemma composed_run {s : Statement} (hs : s.Fair) : Composed s.run := by
  cases s with
  | assign name c => exact composed_assign name c
  | print items =>
    exact .bind (quiet_printed items).composed fun t => .bind (.print t) fun _ => .pure _
  | input prompt name => exact composed_input prompt name
  | goto t => exact .bind (quiet_jumpTarget t).composed fun i => .pure _
  | gosub t => exact .bind (quiet_jumpTarget t).composed fun i => .enterSubroutine i
  | comeBack => exact .leaveSubroutine _ _
  | forLoop name start limit step => exact composed_forLoop name start limit step
  | next name => exact composed_next name
  | finish => exact .pure _
  | remark => exact .pure _
  | read names => exact composed_readData names
  | restore => exact .bind (.adjust fun c => { c with dataRead := 0 }) fun _ => .pure _
  | randomize t => exact composed_randomize t
  | swap a b => exact composed_swap a b
  | color t => exact composed_color t
  | clearScreen => exact .bind (.draw _) fun _ => .pure _
  | faulty e => exact .fail e fun n he => hs n (by rw [he])

end Basic

/-! ### Logo -/

namespace Logo

lemma expand_fair {vars : Variables} {t : Text} {e : ExecError} (h : expand vars t = .error e)
    (n : Nat) : e ≠ .runaway n := by
  have hmap : ∀ {x : Except ExecError Text} {f : Text → Text}, x.map f = .error e →
      x = .error e := by
    intro x f hx
    cases x with
    | error _ => cases hx; rfl
    | ok _ => cases hx
  fun_induction expand vars t with
  | case1 => cases h
  | case2 c r hc name hv => cases h; exact fun h => by cases h
  | case3 c r hc name v hv m hm => cases h; exact fun h => by cases h
  | case4 c r hc name v hv u hu ih => exact ih (hmap h)
  | case5 c r hc ih => exact ih (hmap h)

lemma quiet_expanded (t : Text) : Quiet (expanded t) := by
  refine .get (fun m => ?_) fun m m' h => ?_
  · split
    · exact .pure _
    · next e he => exact .fail e (expand_fair he)
  · have hv : m.vars = m'.vars := congrArg (·.vars) h
    simp only [hv]

lemma quiet_resolve (t : Text) : Quiet (resolve t) :=
  .bind (quiet_expanded t) fun u => .evaluate u

lemma quiet_taken {α : Type} (x : Except Misuse α) : Quiet (taken x) := by
  cases x with
  | ok a => exact .pure a
  | error m => exact .misused m

lemma quiet_number (verb : Text) (i : Except Misuse Text) : Quiet (number verb i) := by
  refine .bind (quiet_taken i) fun t => .bind (quiet_resolve t) fun v => ?_
  split
  · exact .pure _
  · exact .fail _ fun _ h => by cases h

lemma quiet_numbers (verb : Text) (is : List (Except Misuse Text)) :
    Quiet (numbers verb is) := by
  induction is with
  | nil => exact .pure _
  | cons i is ih => exact .bind (quiet_number verb i) fun x => .bind ih fun xs => .pure _

lemma composed_setColor (v : Value) : Composed (do
    match v with
    | .text name => draw (·.setColor (Text.lower name))
    | v =>
      match v.toInteger? with
      | some n => draw (·.setColorIndex n)
      | none => misused .paletteIndex) := by
  split
  · exact .draw _
  · split
    · exact .draw _
    · exact .misused _

lemma composed_color (t : Text) : Composed (color t) := by
  unfold color
  dsimp only
  split
  · exact .bind (quiet_resolve _).composed composed_setColor
  · split
    · exact .bind (.pure _) composed_setColor
    · exact .bind (.pure _) composed_setColor

lemma quiet_printed (a : Arg) : Quiet (printed a) := by
  unfold printed
  split
  · exact .interpolate _
  · split
    · exact .pure _
    · exact .bind (quiet_resolve _) fun v => .pure _

lemma quiet_made (a : Arg) : Quiet (made a) := by
  unfold made
  split
  · exact .pure _
  · split
    · exact .pure _
    · exact quiet_resolve _

lemma quiet_argument (i : Except Misuse Text) : Quiet (argument i) := by
  refine .bind (quiet_taken i) fun e => ?_
  split
  · exact .pure _
  · exact .fatally (quiet_resolve e)

lemma quiet_arguments (is : List (Except Misuse Text)) : Quiet (arguments is) := by
  induction is with
  | nil => exact .pure _
  | cons i is ih => exact .bind (quiet_argument i) fun v => .bind ih fun vs => .pure _

variable {enter : Text → Exec Directive}

lemma composed_runBody (henter : ∀ t, Composed (enter t)) (lines : List Text) :
    Composed (runBody enter lines) := by
  induction lines with
  | nil => exact .pure _
  | cons line lines ih =>
    refine .bind .charge fun _ => .ite (fun _ => .pure _) fun _ =>
      .bind (henter line) fun d => ?_
    split
    · exact ih
    · exact .pure _
    · exact .pure _

lemma composed_call (henter : ∀ t, Composed (enter t)) (p : Procedure)
    (inputs : List (Except Misuse Text)) : Composed (call enter p inputs) := by
  have hbody : ∀ body : Except Misuse (List Text), Composed (do
      let body ← taken body
      deeper (runBody enter body)) := fun body =>
    .bind (quiet_taken body).composed fun lines => .deeper (composed_runBody henter lines)
  refine .bind (quiet_arguments inputs).composed fun args => ?_
  refine .read (fun env => ?_) fun env env' _ _ hd => by simp only [hd]
  refine .get (fun m => ?_) fun m m' h => ?_
  · exact .ite (fun _ => .bind (.fail _ fun _ h => by cases h) fun _ => hbody _) fun _ => hbody _
  · have hd : m.callDepth = m'.callDepth := congrArg (·.callDepth) h
    simp only [hd]

lemma composed_skipDefinition (name : Option Text) : Composed (skipDefinition name) := by
  refine .bind .program fun p => ?_
  split
  · exact .pure _
  · exact .pure _

lemma composed_simple (henter : ∀ t, Composed (enter t)) (s : Simple) :
    Composed (s.run enter) := by
  cases s with
  | motion verb m inputs =>
    exact .bind (quiet_numbers verb inputs).composed fun xs => .bind (.draw _) fun _ => .pure _
  | gesture g => exact .bind (.draw _) fun _ => .pure _
  | color input => exact .bind (composed_color input) fun _ => .pure _
  | print input =>
    exact .bind (quiet_printed input).composed fun t => .bind (.print t) fun _ => .pure _
  | make name input =>
    exact .bind (quiet_made input).composed fun v => .bind (.setVariable name v) fun _ => .pure _
  | stop => exact .pure _
  | define name => exact composed_skipDefinition name
  | call verb p inputs => exact composed_call henter p inputs
  | unknown verb => exact .fail _ fun _ h => by cases h
  | faulty m => exact .misused m

lemma quiet_repeatCount (t : Text) : Quiet (repeatCount t) := by
  refine .bind (.fatally (quiet_resolve t)) fun v => ?_
  split
  · exact .fail _ fun _ h => by cases h
  · exact .pure _

lemma composed_repeatFrom {pass : Nat → Exec Directive} (hpass : ∀ i, Composed (pass i))
    (left i : Nat) : Composed (repeatFrom pass left i) := by
  induction left generalizing i with
  | zero => exact .pure _
  | succ left ih =>
    refine .bind (hpass i) fun d => ?_
    split
    · exact ih (i + 1)
    · exact .pure _

/-- One pass over a repeated block. -/
def pass (enter : Text → Exec Directive) (body : List Sentence) (i : Nat) : Exec Directive := do
  if body.isEmpty then charge
  Exec.setVariable "REPCOUNT".toList (.integer (Int64.ofNat i))
  runAll enter body true

lemma run_repeatBlock (count : Text) (body : List Sentence) :
    (Sentence.repeatBlock count body).run enter =
      (do repeatFrom (pass enter body) (← repeatCount count) 1) := by
  rw [Sentence.run]
  rfl

lemma composed_pass {body : List Sentence} (hbody : Composed (runAll enter body true)) (i : Nat) :
    Composed (pass enter body i) := by
  have hrest := fun (_ : Unit) => Composed.bind
    (.setVariable "REPCOUNT".toList (.integer (Int64.ofNat i))) fun _ => hbody
  exact .ite (fun _ => .bind .charge hrest) fun _ => hrest ()

mutual

theorem composed_sentence (henter : ∀ t, Composed (enter t)) (s : Sentence) :
    Composed (s.run enter) := by
  cases s with
  | simple s => exact composed_simple henter s
  | repeatBlock count body =>
    rw [run_repeatBlock]
    exact .bind (quiet_repeatCount count).composed fun n =>
      composed_repeatFrom (composed_pass (composed_runAll henter body true)) n 1
  | ifBlock condition body =>
    refine .bind (quiet_resolve condition).composed fun v => ?_
    exact .ite (fun _ => composed_runAll henter body true) fun _ => .pure _
  | stray m => exact .misused m

theorem composed_runAll (henter : ∀ t, Composed (enter t)) (ss : List Sentence) (counted : Bool) :
    Composed (runAll enter ss counted) := by
  cases ss with
  | nil => exact .pure _
  | cons s rest =>
    have hrest := fun (_ : Unit) => Composed.bind (composed_sentence henter s) fun d =>
      (show Composed (match d with
        | .next => runAll enter rest true
        | d => pure d) by
        split
        · exact composed_runAll henter rest true
        · exact .pure _)
    exact .ite (fun _ => .bind .charge hrest) fun _ => hrest ()

end

end Logo

/-! ### All commands -/

namespace Basic.Statement

lemma fair_readAssign (t : Text) : (readAssign t).Fair := by
  intro n h
  unfold readAssign at h
  split at h <;> cases h

lemma fair_readInput (t : Text) : (readInput t).Fair := by
  intro n h
  unfold readInput at h
  dsimp only at h
  split at h
  · split at h <;> cases h
  · split at h <;> cases h
  · cases h

lemma fair_readFor (t : Text) : (readFor t).Fair := by
  intro n h
  unfold readFor at h
  dsimp only at h
  split at h
  · cases h
  · split at h
    · cases h
    · split at h <;> cases h

lemma fair_readRead (t : Text) : (readRead t).Fair := by
  intro n h
  unfold readRead at h
  split at h <;> cases h

lemma fair_readSwap (t : Text) : (readSwap t).Fair := by
  intro n h
  unfold readSwap at h
  split at h <;> cases h

lemma fair_ofKeyword (k : Keyword) (t : Text) : (ofKeyword k t).Fair := by
  cases k with
  | assign => exact fair_readAssign t
  | input => exact fair_readInput t
  | forLoop => exact fair_readFor t
  | read => exact fair_readRead t
  | swap => exact fair_readSwap t
  | _ => exact fun n h => by cases h

end Basic.Statement

namespace Command

/-- No statement inside stands for running too long. -/
def Fair : Command → Prop
  | .basic s => s.Fair
  | .nested c => c.Fair
  | .ifThen _ yes no => yes.Fair ∧ no.Fair
  | _ => True

lemma fair_readIfBlock (p : Program) (t : Text) : (readIfBlock p t).Fair := by
  unfold readIfBlock
  split
  · exact fun n h => by cases h
  · exact trivial

/-- What is read has no statement that stands for running too long. -/
lemma fair_read (p : Program) (t : Text) : (read p t).Fair := by
  have hbranch : ∀ (a : Text) (c : Command), c.Fair →
      (if a = [] then skip else if a.all Number.isDigit then jumpTo a else nested c).Fair := by
    intro a c hc
    split
    · exact trivial
    · split
      · exact trivial
      · exact hc
  fun_induction read p t with
  | case3 _ _ _ _ _ condition a b _ iha ihb => exact ⟨hbranch a _ iha, hbranch b _ ihb⟩
  | case4 _ _ _ rest _ _ => exact fair_readIfBlock p rest
  | case5 _ _ _ k rest _ _ => exact Basic.Statement.fair_ofKeyword k rest
  | case6 _ t _ _ _ => exact Basic.Statement.fair_readAssign t
  | case1 | case2 | case7 | case8 | case9 => exact trivial

variable {enter : Text → Exec Directive}

lemma composed_run (henter : ∀ t, Composed (enter t)) {c : Command} (hc : c.Fair) :
    Composed (c.run enter) := by
  induction c with
  | pilot c => exact Pilot.composed_run c
  | basic s => exact Basic.composed_run hc
  | logo line => exact Logo.composed_runAll henter line false
  | skip => exact .pure _
  | jumpTo number => exact .bind (.target number) fun i => .pure _
  | nested c ih => exact .bind .charge fun _ => ih hc
  | ifThen condition yes no hyes hno =>
    exact .bind (.condition condition) fun b => .ite (fun _ => hyes hc.1) fun _ => hno hc.2
  | ifBlock condition body =>
    refine .bind (Logo.quiet_expanded condition).composed fun t => ?_
    cases body with
    | none => exact .misused _
    | some ss =>
      exact .bind (.condition t) fun b =>
        .ite (fun _ => Logo.composed_runAll henter ss true) fun _ => .pure _
  | unknown t => exact .fail _ fun _ h => by cases h

end Command

/-- **Every command is put together from the operations of the machine.** -/
theorem composed_execute (room : Nat) (t : Text) : Composed (execute room t) := by
  induction room generalizing t with
  | zero =>
    exact .bind .program fun p => Command.composed_run
      (fun u => .fail _ fun _ h => by cases h) (Command.fair_read p t)
  | succ room ih =>
    exact .bind .program fun p => Command.composed_run ih (Command.fair_read p t)

lemma execute_eq (room : Nat) (t : Text) (env : Environment) (m : Machine) :
    ∃ enter, execute room t env m = (Command.read env.program t).run enter env m := by
  cases room with
  | zero => exact ⟨_, rfl⟩
  | succ room => exact ⟨_, rfl⟩

end Courseware
