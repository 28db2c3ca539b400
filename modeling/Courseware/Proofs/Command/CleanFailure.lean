import Courseware.Proofs.Command.Composition
import Courseware.Proofs.Command.Reading

/-!
Commands that fail before they have done anything.

Most commands find out all that can go wrong before they change the first thing. Values are
computed, targets are looked up and the host is asked; only then a variable is set, a text printed
or a stack changed, and none of this can fail. So such a command does all that it has to do or
nothing, and its failure leaves a trace only in the random numbers and at the host.
-/

namespace Courseware

open Text

/-- Random numbers may have been drawn and the host may have been asked, which is recorded. All else
is the same, and no event has been emitted. -/
def Machine.Undisturbed (m m' : Machine) : Prop :=
  ∃ (g : Generator) (h : Host) (asked : Array Entry), (∀ x ∈ asked, x.isAsked = true) ∧
    m' = { m with random := g, host := h, log := m.log ++ asked }

namespace Machine.Undisturbed

variable {m m' m'' : Machine}

lemma refl (m : Machine) : m.Undisturbed m := ⟨m.random, m.host, #[], by simp, by simp⟩

lemma trans (h : m.Undisturbed m') (h' : m'.Undisturbed m'') : m.Undisturbed m'' := by
  obtain ⟨g, host, asked, hasked, rfl⟩ := h
  obtain ⟨g', host', asked', hasked', rfl⟩ := h'
  refine ⟨g', host', asked ++ asked', fun x hx => ?_, by simp [Array.append_assoc]⟩
  exact (Array.mem_append.1 hx).elim (hasked x) (hasked' x)

lemma draw (m : Machine) (g : Generator) : m.Undisturbed { m with random := g } :=
  ⟨g, m.host, #[], by simp, by simp⟩

/-- The host is asked, which is recorded if somebody is there to answer. -/
lemma ask (m : Machine) (h : Host) {x : Entry} (hx : x.isAsked = true) (b : Bool) :
    m.Undisturbed { m with host := h, log := if b then m.log.push x else m.log } := by
  cases b with
  | false => exact ⟨m.random, h, #[], by simp, by simp⟩
  | true => exact ⟨m.random, h, #[x], by simpa using hx, by simp⟩

end Machine.Undisturbed

namespace Exec

variable {α β : Type} {x : Exec α} {f : α → Exec β}

/-! ### Doing all or nothing -/

lemma Quiet.undisturbed (hx : Quiet x) (env : Environment) (m : Machine) :
    m.Undisturbed (final (x env m)) := by
  induction hx generalizing m with
  | pure a => exact .refl m
  | fail e h => exact .refl m
  | observe f => exact .refl m
  | consult f => exact .refl m
  | @bind _ _ x f _ _ ihx ihf =>
    have hfirst := ihx m
    cases hr : x env m with
    | ok a n =>
      rw [hr] at hfirst
      rw [bind_of_ok hr]
      exact hfirst.trans (ihf a n)
    | error e n =>
      rw [hr] at hfirst
      rw [bind_of_error hr]
      exact hfirst
  | @fatally _ x _ ih =>
    rw [fatally_eq]
    obtain ⟨o, ho⟩ := final_finish (fun _ n => n) ExecError.toFatal (x env m)
    rw [ho]
    exact ih m
  | evaluate t =>
    -- an expression may draw numbers, even where it fails
    unfold Exec.evaluate
    split
    · next v g _ => exact .draw m g
    · next e g _ => exact .draw m g
  | readLine prompt => exact .ask m _ (x := .prompt prompt) rfl _
  | request r =>
    unfold Exec.request
    dsimp only
    split <;> exact .ask m _ (x := .request r) rfl _

/-- The computation never fails. -/
def Sure (x : Exec α) : Prop := ∀ env m, ∃ a m', x env m = .ok a m'

namespace Sure

lemma pure (a : α) : Sure (pure a) := fun _ m => ⟨a, m, rfl⟩

lemma bind (hx : Sure x) (hf : ∀ a, Sure (f a)) : Sure (x >>= f) := by
  intro env m
  obtain ⟨a, n, hr⟩ := hx env m
  obtain ⟨b, m', hb⟩ := hf a env n
  exact ⟨b, m', (bind_of_ok hr).trans hb⟩

lemma modify (g : Machine → Machine) : Sure (modify g : Exec Unit) := fun _ m => ⟨(), g m, rfl⟩

lemma read {f : Environment → Exec β} (hf : ∀ env, Sure (f env)) :
    Sure (MonadReader.read >>= f) := fun env m => hf env env m

lemma setVariable (name : Text) (v : Value) : Sure (setVariable name v) :=
  fun _ m => ⟨(), m.setVariable name v, rfl⟩

lemma print (t : Text) : Sure (print t) := fun _ m => ⟨(), m.emit (.text t), rfl⟩

lemma enterSubroutine (i : Nat) : Sure (enterSubroutine i) :=
  .read fun _ => .bind (.modify _) fun _ => .pure _

end Sure

/-- If the computation fails, nothing has been disturbed. -/
def Prudent (x : Exec α) : Prop :=
  ∀ env m e m', x env m = .error e m' → m.Undisturbed m'

namespace Prudent

lemma ofQuiet (hx : Quiet x) : Prudent x := by
  intro env m e m' h
  have hfinal := hx.undisturbed env m
  rwa [h] at hfinal

lemma ofSure (hx : Sure x) : Prudent x := by
  intro env m e m' h
  obtain ⟨a, n, hr⟩ := hx env m
  rw [hr] at h
  cases h

lemma fail (e : ExecError) : Prudent (fail e : Exec α) := by
  intro env m e' m' h
  cases h
  exact .refl m

/-- What disturbs nothing may come before. -/
lemma bind (hx : Quiet x) (hf : ∀ a, Prudent (f a)) : Prudent (x >>= f) := by
  intro env m e m' h
  have hfirst := hx.undisturbed env m
  rcases error_of_bind h with herr | ⟨a, n, hr, herr⟩
  · rwa [herr] at hfirst
  · rw [hr] at hfirst
    exact hfirst.trans (hf a env n e m' herr)

lemma get {f : Machine → Exec β} (hf : ∀ m, Prudent (f m)) : Prudent (MonadState.get >>= f) :=
  fun env m => hf m env m

lemma ite {p : Prop} [Decidable p] {y z : Exec α} (hy : p → Prudent y) (hz : ¬ p → Prudent z) :
    Prudent (if p then y else z) := by
  split
  · next h => exact hy h
  · next h => exact hz h

/-- A variable is set at the end. -/
lemma setVariable (name : Text) (v : Value) (a : α) :
    Prudent (do setVariable name v; return a) :=
  .ofSure (.bind (.setVariable name v) fun _ => .pure a)

lemma draw (g : Turtle → Turtle) (a : α) : Prudent (do draw g; return a) :=
  .ofSure (.bind (.modify _) fun _ => .pure a)

lemma leaveSubroutine (command expected : String) : Prudent (leaveSubroutine command expected) := by
  refine .get fun m => ?_
  split
  · exact .fail _
  · exact .ofSure (.bind (.modify _) fun _ => .pure _)

end Prudent

end Exec

open Exec

/-! ### Statements of BASIC -/

namespace Basic

lemma prudent_assign (name : Text) (c : Content) : Prudent (assign name c) :=
  .bind (quiet_value c) fun v => .setVariable name v _

lemma prudent_print (items : List PrintItem) : Prudent (Statement.print items).run :=
  .bind (quiet_printed items) fun t => .ofSure (.bind (.print t) fun _ => .pure _)

lemma prudent_input (prompt name : Text) : Prudent (input prompt name) := by
  refine .bind (.interpolate prompt) fun u => .bind (.readLine u) fun line => ?_
  split
  · exact .fail _
  · exact .setVariable _ _ _

lemma prudent_forLoop (name start limit : Text) (step : Option Text) :
    Prudent (forLoop name start limit step) := by
  have henter : ∀ first last by_ : Value, Prudent (do
      let index := (← read).index
      modify fun m => { m with
        loops := ⟨canonical name, last, by_, index + 1⟩ :: outerLoops (canonical name) m.loops }
      Exec.setVariable (canonical name) first
      return Directive.next) := fun first last by_ =>
    .ofSure (.read fun env => .bind (.modify _) fun _ => .bind (.setVariable _ _) fun _ => .pure _)
  refine .bind (quiet_loopNumber start) fun first => .bind (quiet_loopNumber limit) fun last => ?_
  cases step with
  | some t => exact .bind (quiet_loopNumber t) fun by_ => henter first last by_
  | none => exact .bind (.pure _) fun by_ => henter first last by_

lemma prudent_randomize (t : Text) : Prudent (randomize t) := by
  have hseed : ∀ seed : Option UInt64, Prudent (do
      modify fun m => { m with random := m.random.reseed seed }
      return Directive.next) := fun seed => .ofSure (.bind (.modify _) fun _ => .pure _)
  refine .ite (fun _ => .bind (.pure _) hseed) fun _ => .bind (.evaluate t) fun v => ?_
  split
  · exact .bind (.pure _) hseed
  · exact .bind (.misused _) hseed

lemma prudent_swap (a b : Text) : Prudent (swap a b) :=
  .bind (quiet_known a) fun v => .bind (quiet_known b) fun w =>
    .ofSure (.bind (.setVariable a w) fun _ => .bind (.setVariable b v) fun _ => .pure _)

lemma prudent_color (t : Text) : Prudent (color t) := by
  refine .bind (.evaluate t) fun v => ?_
  dsimp only
  split
  · exact .draw _ _
  · split
    · exact .draw _ _
    · exact .bind (.misused _) fun _ => .ofSure (.pure _)

/-- Statements that may have done something when they fail. -/
def Statement.isGradual : Statement → Bool
  | .next _ => true
  | .read _ => true
  | _ => false

lemma prudent_run {s : Statement} (hs : s.isGradual = false) : Prudent s.run := by
  cases s with
  | assign name c => exact prudent_assign name c
  | print items => exact prudent_print items
  | input prompt name => exact prudent_input prompt name
  | goto t => exact .bind (quiet_jumpTarget t) fun i => .ofSure (.pure _)
  | gosub t => exact .bind (quiet_jumpTarget t) fun i => .ofSure (.enterSubroutine i)
  | comeBack => exact .leaveSubroutine _ _
  | forLoop name start limit step => exact prudent_forLoop name start limit step
  | next name => cases hs
  | finish => exact .ofSure (.pure _)
  | remark => exact .ofSure (.pure _)
  | read names => cases hs
  | restore => exact .ofSure (.bind (.modify _) fun _ => .pure _)
  | randomize t => exact prudent_randomize t
  | swap a b => exact prudent_swap a b
  | color t => exact prudent_color t
  | clearScreen => exact .draw _ _
  | faulty e => exact .fail e

/-- The keywords of the statements that do all or nothing and can fail. -/
def Keyword.prudent : List Keyword :=
  [.assign, .print, .input, .goto, .gosub, .comeBack, .forLoop, .randomize, .swap, .color]

lemma isGradual_ofKeyword {k : Keyword} (hk : k ∈ Keyword.prudent) (t : Text) :
    (Statement.ofKeyword k t).isGradual = false := by
  cases k with
  | assign =>
    change (Statement.readAssign t).isGradual = false
    unfold Statement.readAssign
    split <;> rfl
  | input =>
    change (Statement.readInput t).isGradual = false
    unfold Statement.readInput
    dsimp only
    split
    · split <;> rfl
    · split <;> rfl
    · rfl
  | forLoop =>
    change (Statement.readFor t).isGradual = false
    unfold Statement.readFor
    dsimp only
    split
    · rfl
    · split
      · rfl
      · split <;> rfl
  | swap =>
    change (Statement.readSwap t).isGradual = false
    unfold Statement.readSwap
    split <;> rfl
  | print | goto | gosub | comeBack | randomize | color => rfl
  | ifThen | next | finish | remark | read | restore | clearScreen => exact absurd hk (by decide)

end Basic

/-! ### Commands of PILOT -/

namespace Pilot

lemma prudent_assign (t : Text) : Prudent (assign t) := by
  unfold assign
  split
  · exact .fail _
  · exact .bind (quiet_assigned _) fun v => .setVariable _ v _

lemma prudent_accept (name : Text) : Prudent (accept name) := by
  refine .bind (.readLine _) fun line => ?_
  split
  · exact .fail _
  · exact .setVariable _ _ _

lemma prudent_request (t : Text) : Prudent (do
    match Request.parse? (← Exec.interpolate t) with
    | none => misused .noRequest
    | some r =>
      Exec.setVariable "RESULT".toList (← Exec.request r)
      return Directive.next) := by
  refine .bind (.interpolate t) fun u => ?_
  split
  · exact .fail _
  · next r _ => exact .bind (.request r) fun v => .setVariable _ v _

lemma prudent_call (t : Text) : Prudent (call t) := by
  have hrequest := prudent_request t
  refine .ite (fun _ => .bind (.misused _) fun _ => ?_) fun _ => ?_
  all_goals
    refine .bind .program fun p => ?_
    split
    · exact .ofSure (.enterSubroutine _)
    · exact .ite (fun _ => .bind (.fail _ fun _ h => by cases h) fun _ => hrequest)
        fun _ => hrequest

lemma prudent_ofCode {c : Char} (hc : c ∈ ['U', 'C', 'A', 'R']) (whole operand : Text) :
    Prudent (Command.ofCode whole [c] operand).run := by
  have hcases : c = 'U' ∨ c = 'C' ∨ c = 'A' ∨ c = 'R' := by simpa using hc
  rcases hcases with rfl | rfl | rfl | rfl
  · exact prudent_assign operand
  · have hcode : Command.ofCode whole ['C'] operand =
        if '=' ∈ operand then .assign operand else .comeBack := rfl
    rw [hcode]
    split
    · exact prudent_assign operand
    · exact .leaveSubroutine _ _
  · exact prudent_accept _
  · exact prudent_call operand

end Pilot

/-! ### Commands -/

/-- Commands without white space around them that do all or nothing: statements of BASIC that begin
with their keyword, assignments without a keyword, and `U:`, `C:`, `A:` and `R:` of PILOT. What
follows the keyword or the code may be anything that does not continue the word. -/
inductive AllOrNothing : Text → Prop where
  | statement {w a : Text} {k : Basic.Keyword} (hw : Basic.Keyword.ofName? (upper w) = some k)
      (hk : k ∈ Basic.Keyword.prudent) (ha : EndsName a) : AllOrNothing (w ++ a)
  | assignment {t : Text} (ht : Family.isAssignment t = true)
      (hw : Basic.Keyword.ofName? (upper (Family.leadingWord t)) = none) : AllOrNothing t
  | code {c : Char} (hc : c.toUpper ∈ ['U', 'C', 'A', 'R']) (a : Text) :
      AllOrNothing (c :: ':' :: a)

lemma AllOrNothing.prudent {t : Text} (h : AllOrNothing (trim t)) (p : Program)
    (enter : Text → Exec Directive) : Prudent ((Command.read p t).run enter) := by
  generalize hu : trim t = u at h
  cases h with
  | @statement w a k hw hk ha =>
    -- `IF` is read in a way of its own
    have hif : k ≠ .ifThen := by
      rintro rfl
      exact absurd hk (by decide)
    rw [← Command.read_trim, hu, Command.read_keyword p hw hif ha]
    exact Basic.prudent_run (Basic.isGradual_ofKeyword hk _)
  | assignment ht hw =>
    subst hu
    rw [Command.read_assignment p ht hw]
    exact Basic.prudent_run (Basic.isGradual_ofKeyword (k := .assign) (by decide) _)
  | @code c hc a =>
    have halpha : c.isAlpha = true := by
      have hletters : ['U', 'C', 'A', 'R'].all Char.isAlpha = true := rfl
      rw [← isAlpha_toUpper]
      exact List.all_eq_true.1 hletters _ hc
    rw [← Command.read_trim, hu, Command.read_code p halpha]
    exact Pilot.prudent_ofCode hc _ _

/-- **A failed command has changed nothing**, if it is one of those that do all or nothing. -/
theorem undisturbed_of_failed {t : Text} (ht : AllOrNothing (trim t)) (room : Nat)
    (env : Environment) {m m' : Machine} {e : ExecError}
    (h : execute room t env m = .error e m') : m.Undisturbed m' := by
  obtain ⟨enter, he⟩ := execute_eq room t env m
  exact ht.prudent env.program enter env m e m' (he.symm.trans h)

/-- A request that its subsystem does not answer: the host has been asked, and that is all. -/
theorem undisturbed_of_failed_request :
    ∃ (m m' : Machine) (e : ExecError), AllOrNothing (trim " r: DB  get key ".toList) ∧
      execute 0 " r: DB  get key ".toList ⟨{}, {}, 0⟩ m = .error e m' ∧
      m'.log = #[.request ⟨"DB".toList, "GET".toList, ["key".toList]⟩] ∧
      m.Undisturbed m' := by
  let db : RuntimeChannel := { answer := fun _ r => .error (.failed r.subsystem r.verb []) }
  let m : Machine := { (default : Machine) with host := Host.register {} "DB".toList db }
  have ht : AllOrNothing (trim " r: DB  get key ".toList) :=
    .code (c := 'r') (by decide) " DB  get key".toList
  have hread : Command.read {} " r: DB  get key ".toList = .pilot (.call "DB  get key".toList) := by
    rw [← Command.read_trim]
    exact Command.read_code {} (c := 'r') rfl " DB  get key".toList
  obtain ⟨m', e, hcall, hlog⟩ : ∃ m' e,
      Pilot.call "DB  get key".toList ⟨{}, {}, 0⟩ m = .error e m' ∧
      m'.log = #[.request ⟨"DB".toList, "GET".toList, ["key".toList]⟩] :=
    ⟨_, _, by with_unfolding_all rfl, rfl⟩
  have hfails : execute 0 " r: DB  get key ".toList ⟨{}, {}, 0⟩ m = .error e m' := by
    obtain ⟨enter, he⟩ := execute_eq 0 " r: DB  get key ".toList ⟨{}, {}, 0⟩ m
    rw [he, hread]
    exact hcall
  exact ⟨m, m', e, ht, hfails, hlog, undisturbed_of_failed ht 0 _ hfails⟩

end Courseware
