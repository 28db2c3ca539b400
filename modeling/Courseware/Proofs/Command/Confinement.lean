import Courseware.Proofs.Command.Nesting
import Courseware.Proofs.Machine.Confinement

/-!
No command leads out of its program. Whatever command is executed at a line of a program whose
labels, line numbers and procedures lead to lines, control stays within the program, and where
the command says to go on is a line of the program or the end of it.
-/

namespace Courseware

open Exec

variable {p : Program}

/-! ### PILOT -/

namespace Pilot

lemma confined_holds (c : Condition) : Confined p c.holds fun _ => True := by
  cases c with
  | unlessFailed =>
    refine .get fun m _ => .bind (Q := fun _ => True) ?_ fun _ _ => .pure trivial
    exact .adjust (g := fun c => { c with verdict := m.verdict.take.2 }) fun c hc =>
      ⟨hc.returns, hc.loops, hc.distinct, hc.dataRead_le⟩
  | onLast b => exact .ofQuiet (.observe fun v => decide (v.control.verdict.last = b))

lemma confined_jump (hp : p.Placed) (label : Text) : Confined p (jump label) (·.Within p) := by
  refine .ite (fun _ => .fail_bind _ _) fun _ => ?_
  exact .bind (.target hp label) fun i hi => .pure (Nat.le_of_lt hi)

lemma confined_assign (t : Text) : Confined p (assign t) (·.Within p) := by
  unfold assign
  split
  · exact .misused _
  · exact .bind (.ofQuiet (quiet_assigned _)) fun v _ =>
      .bind (.setVariable _ v) fun _ _ => .pure trivial

lemma confined_accept (name : Text) : Confined p (accept name) (·.Within p) := by
  refine .bind (.ofQuiet (.readLine _)) fun line _ => ?_
  split
  · exact .fail _
  · exact .bind (.setVariable _ _) fun _ _ => .pure trivial

lemma confined_call (hp : p.Placed) (t : Text) : Confined p (call t) (·.Within p) := by
  refine .ite (fun _ => .fail_bind _ _) fun _ => .bind .program fun q hq => ?_
  subst hq
  split
  · next i hi => exact .enterSubroutine (hp.target hi)
  · refine .ite (fun _ => .fail_bind _ _) fun _ => .bind (.ofQuiet (.interpolate t)) fun u _ => ?_
    split
    · exact .misused _
    · next r _ =>
      exact .bind (.ofQuiet (.request r)) fun v _ =>
        .bind (.setVariable _ v) fun _ _ => .pure trivial

lemma confined_run (hp : p.Placed) (c : Command) : Confined p c.run (·.Within p) := by
  cases c with
  | type c t =>
    refine .bind (confined_holds c) fun b _ => .ite (fun _ => ?_) fun _ => .pure trivial
    exact .bind (.ofQuiet (.interpolate t)) fun u _ => .bind (.print u) fun _ _ => .pure trivial
  | test t =>
    rw [Command.run, test_eq]
    refine .bind (.closing (.ofQuiet (.condition t)) fun o c hc => ?_) fun _ _ => .pure trivial
    exact ⟨hc.returns, hc.loops, hc.distinct, hc.dataRead_le⟩
  | jump c t =>
    exact .bind (confined_holds c) fun b _ =>
      .ite (fun _ => confined_jump hp t) fun _ => .pure trivial
  | label => exact .pure trivial
  | assign t => exact confined_assign t
  | comeBack => exact .leaveSubroutine _ _
  | accept name => exact confined_accept name
  | call t => exact confined_call hp t
  | finish =>
    exact .get fun m _ => .ite (fun _ => .pure trivial) fun _ => .leaveSubroutine _ _
  | unknown t => exact .fail _

end Pilot

/-! ### BASIC -/

namespace Basic

lemma confined_assign (name : Text) (c : Content) : Confined p (assign name c) (·.Within p) :=
  .bind (.ofQuiet (quiet_value c)) fun v _ => .bind (.setVariable name v) fun _ _ => .pure trivial

lemma confined_input (prompt name : Text) : Confined p (input prompt name) (·.Within p) := by
  refine .bind (.ofQuiet (.interpolate prompt)) fun u _ =>
    .bind (.ofQuiet (.readLine u)) fun line _ => ?_
  split
  · exact .fail _
  · exact .bind (.setVariable _ _) fun _ _ => .pure trivial

lemma lt_of_numbered (hp : p.Placed) {v : Value} {i : Nat} (h : numbered? p v = some i) :
    i < p.size := by
  obtain ⟨n, -, hn⟩ := Option.bind_eq_some_iff.1 h
  split at hn
  · exact hp.number hn
  · cases hn

lemma confined_jumpTarget (hp : p.Placed) (t : Text) :
    Confined p (jumpTarget t) (· < p.size) := by
  refine .ite (fun _ => .fail_bind _ _) fun _ => .bind .program fun q hq => ?_
  subst hq
  split
  · next i hi => exact .pure (hp.target hi)
  · refine .bind (.ofQuiet (.valueOf? t)) fun _ _ => .ite (fun _ => .fail_bind _ _) fun _ => ?_
    refine .bind (.ofQuiet (.fatally (.evaluate t))) fun v _ => .bind .program fun q' hq => ?_
    subst hq
    split
    · next i hi => exact .pure (lt_of_numbered hp hi)
    · exact .fail _

/-- What bounds a loop is a number. -/
lemma confined_loopNumber (t : Text) : Confined p (loopNumber t) (·.isNumeric = true) :=
  .bind (.ofQuiet (.fatally (.evaluate t))) fun _ _ => .ite (fun hv => .pure hv) fun _ => .fail _

lemma outerLoops_sublist (var : Text) (loops : List Loop) :
    (outerLoops var loops).Sublist loops := by
  unfold outerLoops
  split
  · exact (List.drop_sublist _ _).trans (List.dropWhile_sublist _)
  · exact List.Sublist.refl _

/-- The loop that is entered anew is not among those that stay. -/
lemma not_mem_outerLoops {var : Text} {loops : List Loop} (hd : (loops.map (·.var)).Nodup) :
    var ∉ (outerLoops var loops).map (·.var) := by
  -- no two loops have the same variable, so dropping one drops all
  have hdrop : var ∉ ((loops.dropWhile (·.var ≠ var)).drop 1).map (·.var) := by
    induction loops with
    | nil => exact List.not_mem_nil
    | cons l loops ih =>
      rw [List.map_cons, List.nodup_cons] at hd
      by_cases hl : l.var = var
      · rw [List.dropWhile_cons_of_neg (by simpa using hl), ← hl]
        exact hd.1
      · rw [List.dropWhile_cons_of_pos (by simpa using hl)]
        exact ih hd.2
  unfold outerLoops
  split
  · exact hdrop
  · next hany =>
    intro hmem
    obtain ⟨l, hl, hvar⟩ := List.mem_map.1 hmem
    exact hany (List.any_eq_true.2 ⟨l, hl, decide_eq_true hvar⟩)

/-- Loops may be left. -/
lemma within_of_sublist {c : Control} (hc : c.Within p) {loops outer : List Loop}
    (hl : ∀ l ∈ loops, l.Within p) (hd : (loops.map (·.var)).Nodup)
    (hs : outer.Sublist loops) : Control.Within p { c with loops := outer } where
  returns := hc.returns
  loops l h := hl l (hs.subset h)
  distinct := hd.sublist (hs.map _)
  dataRead_le := hc.dataRead_le

lemma within_enter {c : Control} (hc : c.Within p) {l : Loop} (hl : l.Within p) :
    Control.Within p { c with loops := l :: outerLoops l.var c.loops } where
  returns := hc.returns
  loops k hk := by
    rcases List.mem_cons.1 hk with rfl | hk
    · exact hl
    · exact hc.loops k ((outerLoops_sublist _ _).subset hk)
  distinct := by
    rw [List.map_cons, List.nodup_cons]
    exact ⟨not_mem_outerLoops hc.distinct, hc.distinct.sublist ((outerLoops_sublist _ _).map _)⟩
  dataRead_le := hc.dataRead_le

lemma confined_forLoop (name start limit : Text) (step : Option Text) :
    Confined p (forLoop name start limit step) (·.Within p) := by
  -- the start, the limit and the step are numbers; what is left is to enter the loop
  have henter : ∀ first last by_ : Value, last.isNumeric = true → by_.isNumeric = true →
      Confined p (do
        let index := (← read).index
        modify fun m => { m with
          loops := ⟨Text.canonical name, last, by_, index + 1⟩ ::
            outerLoops (Text.canonical name) m.loops }
        Exec.setVariable (Text.canonical name) first
        return Directive.next) (·.Within p) := by
    intro first last by_ hlast hby
    refine .read fun env _ hindex => ?_
    have hloop : Loop.Within p ⟨Text.canonical name, last, by_, env.index + 1⟩ :=
      ⟨hindex, hlast, hby, Text.canonical_canonical name⟩
    refine .bind (Q := fun _ => True) ?_ fun _ _ =>
      .bind (.setVariable _ _) fun _ _ => .pure trivial
    exact .adjust (g := fun c => { c with
      loops := ⟨Text.canonical name, last, by_, env.index + 1⟩ ::
        outerLoops (Text.canonical name) c.loops }) fun c hc => within_enter hc hloop
  refine .bind (confined_loopNumber start) fun first _ =>
    .bind (confined_loopNumber limit) fun last hlast => ?_
  cases step with
  | some t => exact .bind (confined_loopNumber t) fun by_ hby => henter first last by_ hlast hby
  | none =>
    exact .bind (.pure (Q := (·.isNumeric = true)) rfl) fun by_ hby =>
      henter first last by_ hlast hby

lemma confined_next (name : Text) : Confined p (next name) (·.Within p) := by
  refine .get fun m hm => ?_
  dsimp only
  split
  · exact .fail _
  · next f outer hf =>
    -- the loops within the one that is named are given up first
    have hframes : (f :: outer).Sublist m.loops := by
      rw [← hf]
      split
      · exact List.Sublist.refl _
      · exact List.dropWhile_sublist _
    have hfirst : f.Within p := hm.loops f (hframes.subset List.mem_cons_self)
    have houter : outer.Sublist m.loops := (List.sublist_cons_self f outer).trans hframes
    rw [hf]
    refine .bind (Q := fun _ => True) ?_ fun _ _ => .bind (.ofQuiet (.valueOf? f.var)) fun v _ => ?_
    · exact .adjust (g := fun c => { c with loops := f :: outer }) fun c hc =>
        within_of_sublist hc hm.loops hm.distinct hframes
    · split
      · exact .fail _
      · refine .bind (.ofQuiet (.fatally (.ofEval _))) fun w _ =>
          .bind (.setVariable _ w) fun _ _ => ?_
        split
        · exact .fail _
        · -- another pass, from the line after the head of the loop
          exact .pure hfirst.body_le
        · refine .bind (Q := fun _ => True) ?_ fun _ _ => .pure trivial
          exact .adjust (g := fun c => { c with loops := outer }) fun c hc =>
            within_of_sublist hc hm.loops hm.distinct houter

/-- Data is read only as long as there is some. -/
lemma readData_cons (name : Text) (names : List Text) (env : Environment) (m : Machine) :
    readData (name :: names) env m = (match env.program.data[m.dataRead]? with
      | none => fail .outOfData
      | some v => do
        modify fun m => { m with dataRead := m.dataRead + 1 }
        Exec.setVariable name v
        readData names : Exec Directive) env m := rfl

lemma confined_readData (names : List Text) : Confined p (readData names) (·.Within p) := by
  induction names with
  | nil => exact .pure trivial
  | cons name names ih =>
    have hrest : ∀ v, Confined p (do Exec.setVariable name v; readData names) (·.Within p) :=
      fun v => .bind (.setVariable name v) fun _ _ => ih
    -- the machine that is looked at is the one that reads on
    intro env m henv hi hm
    rw [readData_cons, henv]
    cases hv : p.data[m.dataRead]? with
    | none => exact Confined.fail _ env m henv hi hm
    | some v =>
      have hlt : m.dataRead < p.data.length := (List.getElem?_eq_some_iff.1 hv).1
      exact hrest v env { m with dataRead := m.dataRead + 1 } henv hi
        ⟨hm.returns, hm.loops, hm.distinct, hlt⟩

lemma confined_randomize (t : Text) : Confined p (randomize t) (·.Within p) := by
  have hseed : ∀ seed : Option UInt64, Confined p (do
      modify fun m => { m with random := m.random.reseed seed }
      return Directive.next) (·.Within p) := by
    intro seed
    refine .bind (Q := fun _ => True) ?_ fun _ _ => .pure trivial
    exact .adjust (g := fun c => { c with random := c.random.reseed seed }) fun c hc =>
      ⟨hc.returns, hc.loops, hc.distinct, hc.dataRead_le⟩
  refine .ite (fun _ => .bind (.pure trivial) fun seed (_ : True) => hseed seed) fun _ =>
    .bind (.ofQuiet (.evaluate t)) fun v _ => ?_
  split
  · exact .bind (.pure trivial) fun seed (_ : True) => hseed seed
  · exact .fail_bind _ _

lemma confined_swap (a b : Text) : Confined p (swap a b) (·.Within p) :=
  .bind (.ofQuiet (quiet_known a)) fun v _ => .bind (.ofQuiet (quiet_known b)) fun w _ =>
    .bind (.setVariable a w) fun _ _ => .bind (.setVariable b v) fun _ _ => .pure trivial

lemma confined_color (t : Text) : Confined p (color t) (·.Within p) := by
  refine .bind (.ofQuiet (.evaluate t)) fun v _ => ?_
  dsimp only
  split
  · exact .bind (.draw _) fun _ _ => .pure trivial
  · split
    · exact .bind (.draw _) fun _ _ => .pure trivial
    · exact .fail_bind _ _

lemma confined_run (hp : p.Placed) (s : Statement) : Confined p s.run (·.Within p) := by
  cases s with
  | assign name c => exact confined_assign name c
  | print items =>
    exact .bind (.ofQuiet (quiet_printed items)) fun t _ =>
      .bind (.print t) fun _ _ => .pure trivial
  | input prompt name => exact confined_input prompt name
  | goto t => exact .bind (confined_jumpTarget hp t) fun i hi => .pure (Nat.le_of_lt hi)
  | gosub t => exact .bind (confined_jumpTarget hp t) fun i hi => .enterSubroutine hi
  | comeBack => exact .leaveSubroutine _ _
  | forLoop name start limit step => exact confined_forLoop name start limit step
  | next name => exact confined_next name
  | finish => exact .pure trivial
  | remark => exact .pure trivial
  | read names => exact confined_readData names
  | restore =>
    refine .bind (Q := fun _ => True) ?_ fun _ _ => .pure trivial
    exact .adjust (g := fun c => { c with dataRead := 0 }) fun c hc =>
      ⟨hc.returns, hc.loops, hc.distinct, Nat.zero_le _⟩
  | randomize t => exact confined_randomize t
  | swap a b => exact confined_swap a b
  | color t => exact confined_color t
  | clearScreen => exact .bind (.draw _) fun _ _ => .pure trivial
  | faulty e => exact .fail e

end Basic

/-! ### Logo -/

namespace Logo

variable {enter : Text → Exec Directive}

lemma confined_setColor (v : Value) : Confined p (do
    match v with
    | .text name => draw (·.setColor (Text.lower name))
    | v =>
      match v.toInteger? with
      | some n => draw (·.setColorIndex n)
      | none => misused .paletteIndex) fun _ => True := by
  split
  · exact .draw _
  · split
    · exact .draw _
    · exact .misused _

lemma confined_color (t : Text) : Confined p (color t) fun _ => True := by
  unfold color
  dsimp only
  split
  · exact .bind (.ofQuiet (quiet_resolve _)) fun v _ => confined_setColor v
  · split
    · exact .bind (.pure trivial) fun v (_ : True) => confined_setColor v
    · exact .bind (.pure trivial) fun v (_ : True) => confined_setColor v

lemma confined_runBody (henter : ∀ t, Confined p (enter t) (·.Within p)) (lines : List Text) :
    Confined p (runBody enter lines) (·.Within p) := by
  induction lines with
  | nil => exact .pure trivial
  | cons line lines ih =>
    refine .bind .charge fun _ _ => .ite (fun _ => .pure trivial) fun _ =>
      .bind (henter line) fun d hd => ?_
    split
    · exact ih
    · exact .pure trivial
    · exact .pure hd

lemma confined_call (henter : ∀ t, Confined p (enter t) (·.Within p)) (q : Procedure)
    (inputs : List (Except Misuse Text)) : Confined p (call enter q inputs) (·.Within p) := by
  refine .bind (.ofQuiet (quiet_arguments inputs)) fun args _ => .read fun env _ _ =>
    .get fun m _ => .ite (fun _ => .fail_bind _ _) fun _ => ?_
  exact .bind (.ofQuiet (quiet_taken _)) fun lines _ => .deeper (confined_runBody henter lines)

/-- A definition is skipped to a line or to the end of the program. -/
lemma confined_skipDefinition (hp : p.Placed) (name : Option Text) :
    Confined p (skipDefinition name) (·.Within p) := by
  refine .bind .program fun q hq => ?_
  subst hq
  split
  · next r hr =>
    obtain ⟨n, -, hn⟩ := Option.bind_eq_some_iff.1 hr
    exact .pure (hp.procedure hn)
  · exact .pure trivial

lemma confined_simple (hp : p.Placed) (henter : ∀ t, Confined p (enter t) (·.Within p))
    (s : Simple) : Confined p (s.run enter) (·.Within p) := by
  cases s with
  | motion verb m inputs =>
    exact .bind (.ofQuiet (quiet_numbers verb inputs)) fun xs _ =>
      .bind (.draw _) fun _ _ => .pure trivial
  | gesture g => exact .bind (.draw _) fun _ _ => .pure trivial
  | color input => exact .bind (confined_color input) fun _ _ => .pure trivial
  | print input =>
    exact .bind (.ofQuiet (quiet_printed input)) fun t _ =>
      .bind (.print t) fun _ _ => .pure trivial
  | make name input =>
    exact .bind (.ofQuiet (quiet_made input)) fun v _ =>
      .bind (.setVariable name v) fun _ _ => .pure trivial
  | stop => exact .pure trivial
  | define name => exact confined_skipDefinition hp name
  | call verb q inputs => exact confined_call henter q inputs
  | unknown verb => exact .fail _
  | faulty m => exact .misused m

lemma confined_repeatFrom {pass : Nat → Exec Directive}
    (hpass : ∀ i, Confined p (pass i) (·.Within p)) (left i : Nat) :
    Confined p (repeatFrom pass left i) (·.Within p) := by
  induction left generalizing i with
  | zero => exact .pure trivial
  | succ left ih =>
    refine .bind (hpass i) fun d hd => ?_
    split
    · exact ih (i + 1)
    · exact .pure hd

lemma confined_pass {body : List Sentence}
    (hbody : Confined p (runAll enter body true) (·.Within p)) (i : Nat) :
    Confined p (pass enter body i) (·.Within p) := by
  have hrest := fun (_ : Unit) (_ : True) => Confined.bind (p := p)
    (.setVariable "REPCOUNT".toList (.integer (Int64.ofNat i))) fun _ _ => hbody
  exact .ite (fun _ => .bind .charge hrest) fun _ => hrest () trivial

mutual

theorem confined_sentence (hp : p.Placed) (henter : ∀ t, Confined p (enter t) (·.Within p))
    (s : Sentence) : Confined p (s.run enter) (·.Within p) := by
  cases s with
  | simple s =>
    rw [Sentence.run]
    exact confined_simple hp henter s
  | repeatBlock count body =>
    rw [run_repeatBlock]
    exact .bind (.ofQuiet (quiet_repeatCount count)) fun n _ =>
      confined_repeatFrom (confined_pass (confined_runAll hp henter body true)) n 1
  | ifBlock condition body =>
    rw [Sentence.run]
    refine .bind (.ofQuiet (quiet_resolve condition)) fun v _ => ?_
    exact .ite (fun _ => confined_runAll hp henter body true) fun _ => .pure trivial
  | stray m =>
    rw [Sentence.run]
    exact .misused m

theorem confined_runAll (hp : p.Placed) (henter : ∀ t, Confined p (enter t) (·.Within p))
    (ss : List Sentence) (counted : Bool) :
    Confined p (runAll enter ss counted) (·.Within p) := by
  cases ss with
  | nil =>
    rw [runAll]
    exact .pure trivial
  | cons s rest =>
    rw [runAll]
    have hrest := fun (_ : Unit) (_ : True) => Confined.bind (confined_sentence hp henter s)
      fun d hd => (show Confined p (match d with
        | .next => runAll enter rest true
        | d => pure d) (·.Within p) by
        split
        · exact confined_runAll hp henter rest true
        · exact .pure hd)
    exact .ite (fun _ => .bind .charge hrest) fun _ => hrest () trivial

end

end Logo

/-! ### All commands -/

lemma Command.confined_run (hp : p.Placed) {enter : Text → Exec Directive}
    (henter : ∀ t, Confined p (enter t) (·.Within p)) (c : Command) :
    Confined p (c.run enter) (·.Within p) := by
  induction c with
  | pilot c => exact Pilot.confined_run hp c
  | basic s => exact Basic.confined_run hp s
  | logo line => exact Logo.confined_runAll hp henter line false
  | skip => exact .pure trivial
  | jumpTo number => exact .bind (.target hp number) fun i hi => .pure (Nat.le_of_lt hi)
  | nested c ih => exact .bind .charge fun _ _ => ih
  | ifThen condition yes no hyes hno =>
    exact .bind (.ofQuiet (.condition condition)) fun b _ => .ite (fun _ => hyes) fun _ => hno
  | ifBlock condition body =>
    refine .bind (.ofQuiet (Logo.quiet_expanded condition)) fun t _ => ?_
    cases body with
    | none => exact .misused _
    | some ss =>
      exact .bind (.ofQuiet (.condition t)) fun b _ =>
        .ite (fun _ => Logo.confined_runAll hp henter ss true) fun _ => .pure trivial
  | unknown t => exact .fail _

/-- **No command leads out of its program.** -/
theorem confined_execute (hp : p.Placed) (room : Nat) (t : Text) :
    Confined p (execute room t) (·.Within p) := by
  induction room generalizing t with
  | zero =>
    exact .bind .program fun q _ => Command.confined_run hp (fun u => .fail _) (Command.read q t)
  | succ room ih =>
    exact .bind .program fun q _ => Command.confined_run hp ih (Command.read q t)

/-! ### Commands inside commands -/

namespace Task

variable {env : Environment} {m n : Machine} {x y : Task}

lemma confined_entering (hp : p.Placed) (room : Nat) (t : Text) :
    Confined p (entering room t) (·.Within p) := by
  cases room with
  | zero => exact .fail _
  | succ room => exact confined_execute hp room t

lemma confined_run (hp : p.Placed) (x : Task) : Confined p x.run (·.Within p) := by
  have henter := confined_entering hp
  cases x with
  | line room t => exact confined_execute hp room t
  | command room c => exact Command.confined_run hp (henter room) c
  | sentence room s => exact Logo.confined_sentence hp (henter room) s
  | block room ss counted => exact Logo.confined_runAll hp (henter room) ss counted
  | passes room body left i =>
    exact Logo.confined_repeatFrom
      (Logo.confined_pass (Logo.confined_runAll hp (henter room) body true)) left i
  | procedure room lines => exact Logo.confined_runBody (henter room) lines

lemma confined_count (s : Logo.Sentence) (counted : Bool) :
    Confined p (count s counted) fun _ => True :=
  .ite (fun _ => .charge) fun _ => .pure trivial

lemma confined_announce (body : List Logo.Sentence) (i : Nat) :
    Confined p (announce body i) fun _ => True :=
  .ite (fun _ => .bind .charge fun _ _ => .setVariable _ _) fun _ => .setVariable _ _

/-- Control is within the program wherever a task is begun. -/
lemma within_of_starts (hp : p.Placed) (henv : env.program = p) (hi : env.index < p.size)
    (h : Starts env x m y n) (hm : m.control.Within p) : n.control.Within p := by
  -- nothing that is executed before the part begins leads out of the program
  have hok : ∀ {α : Type} {z : Exec α} {Q : α → Prop} {a : α} {k k' : Machine},
      Confined p z Q → k.control.Within p → z env k = .ok a k' → k'.control.Within p := by
    intro α z Q a k k' hz hk hr
    have hw := (hz env k henv hi hk).1
    rw [hr] at hw
    exact hw
  cases h with
  | read => exact hm
  | logo => exact hm
  | nested h => exact hok .charge hm h
  | branch h => exact hok (.ofQuiet (.condition _)) hm h
  | guarded ht h =>
    exact hok (.ofQuiet (.condition _)) (hok (.ofQuiet (Logo.quiet_expanded _)) hm ht) h
  | first h => exact hok (confined_count _ _) hm h
  | rest h hs =>
    have hcounted := hok (confined_count _ _) hm h
    exact hok (Logo.confined_sentence hp (confined_entering hp _) _) hcounted hs
  | conditional h _ => exact hok (.ofQuiet (Logo.quiet_resolve _)) hm h
  | repetition h => exact hok (.ofQuiet (Logo.quiet_repeatCount _)) hm h
  | pass h => exact hok (confined_announce _ _) hm h
  | @again room body _ i _ _ h =>
    have hbody := Logo.confined_runAll hp (confined_entering hp room) body true
    exact hok (Logo.confined_pass hbody i) hm h
  | @call _ _ _ inputs _ _ _ m' ha _ _ =>
    have hargs : m'.control.Within p := hok (.ofQuiet (Logo.quiet_arguments inputs)) hm ha
    exact hargs
  | enter h _ => exact hok .charge hm h
  | next h _ hl => exact hok (confined_entering hp _ _) (hok .charge hm h) hl

/-- **No command inside a line leads out of the program either.** -/
theorem settled_of_holds (hp : p.Placed) (henv : env.program = p) (hi : env.index < p.size)
    (hm : m.control.Within p) (h : Holds env x m y n) :
    n.control.Within p ∧ Settled p (·.Within p) (y.run env n) := by
  have hn : n.control.Within p := by
    induction h with
    | whole => exact hm
    | part _ hs ih => exact within_of_starts hp henv hi hs ih
  exact ⟨hn, confined_run hp y env n henv hi hn⟩

end Task

end Courseware
