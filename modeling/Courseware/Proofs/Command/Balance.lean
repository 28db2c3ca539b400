import Courseware.Program.Loading
import Courseware.Proofs.Command.Depth
import Courseware.Proofs.Command.Nesting
import Courseware.Proofs.Logo.Reading
import Courseware.Proofs.Text.Trimming

/-!
Calls of procedures are balanced.

A call goes one deeper for the lines of its procedure and comes back, whichever way it is left.
Where calls are as deep as they may be, another call is refused when its arguments are known, so
nothing is ever run deeper than that.
-/

namespace Courseware

open Exec

namespace Exec

variable {α : Type} {env : Environment} {x : Exec α} {m n : Machine} {a : α}

lemma Composed.callDepth_of_ok (hx : Composed x) (h : x env m = .ok a n) :
    n.callDepth = m.callDepth := by
  have hd := hx.callDepth_eq env m
  rwa [h] at hd

/-- `Meets env x m n` says that `n` is the machine at some moment while `x` runs from `m`.
Computations are taken apart in every way into compositions of operations, but what runs deeper
is not looked into. -/
inductive Meets (env : Environment) : {α : Type} → Exec α → Machine → Machine → Prop where
  | start {α : Type} {x : Exec α} {m : Machine} : Meets env x m m
  | finish {α : Type} {x : Exec α} {m : Machine} (hx : Composed x) :
      Meets env x m (final (x env m))
  | first {α β : Type} {x : Exec α} {f : α → Exec β} {m n : Machine} (h : Meets env x m n) :
      Meets env (x >>= f) m n
  | second {α β : Type} {x : Exec α} {f : α → Exec β} {m m' n : Machine} {a : α}
      (hx : Composed x) (hr : x env m = .ok a m') (h : Meets env (f a) m' n) :
      Meets env (x >>= f) m n
  | fatally {α : Type} {x : Exec α} {m n : Machine} (h : Meets env x m n) :
      Meets env (fatally x) m n
  | closing {α : Type} {x : Exec α} {m n : Machine} (f : Option α → Control → Control)
      (h : Meets env x m n) : Meets env (closing x f) m n

lemma Meets.callDepth_eq (h : Meets env x m n) : n.callDepth = m.callDepth := by
  induction h with
  | start => rfl
  | @finish _ _ m hx => exact hx.callDepth_eq env m
  | first _ ih => exact ih
  | second hx hr _ ih => exact ih.trans (hx.callDepth_of_ok hr)
  | fatally _ ih => exact ih
  | closing _ _ ih => exact ih

end Exec

lemma composed_entering (room : Nat) (t : Text) : Composed (entering room t) := by
  cases room with
  | zero => exact .fail _ fun _ h => by cases h
  | succ room => exact composed_execute room t

namespace Task

variable {env : Environment} {x y : Task} {m n : Machine}

lemma composed_count (s : Logo.Sentence) (counted : Bool) : Composed (count s counted) :=
  .ite (fun _ => .charge) fun _ => .pure _

lemma composed_announce (body : List Logo.Sentence) (i : Nat) : Composed (announce body i) :=
  .ite (fun _ => .bind .charge fun _ => .setVariable _ _) fun _ => .setVariable _ _

/-- What is started begins within the limit of calls. -/
lemma Starts.callDepth_le (h : Starts env x m y n)
    (hm : m.callDepth ≤ env.settings.maxCallDepth) : n.callDepth ≤ env.settings.maxCallDepth := by
  cases h with
  | read => exact hm
  | logo => exact hm
  | nested h => exact (Composed.charge.callDepth_of_ok h).trans_le hm
  | branch h => exact ((Composed.condition _).callDepth_of_ok h).trans_le hm
  | guarded ht h =>
    have hexpanded := (Logo.quiet_expanded _).composed.callDepth_of_ok ht
    exact (((Composed.condition _).callDepth_of_ok h).trans hexpanded).trans_le hm
  | first h => exact ((composed_count _ _).callDepth_of_ok h).trans_le hm
  | rest h hs =>
    have hcount := (composed_count _ _).callDepth_of_ok h
    have hrun := (Logo.composed_sentence (composed_entering _) _).callDepth_of_ok hs
    exact (hrun.trans hcount).trans_le hm
  | conditional h _ => exact ((Logo.quiet_resolve _).composed.callDepth_of_ok h).trans_le hm
  | repetition h => exact ((Logo.quiet_repeatCount _).composed.callDepth_of_ok h).trans_le hm
  | pass h => exact ((composed_announce _ _).callDepth_of_ok h).trans_le hm
  | @again room body _ _ _ _ h =>
    have hbody := Logo.composed_runAll (composed_entering room) body true
    exact ((Logo.composed_pass hbody _).callDepth_of_ok h).trans_le hm
  -- the limit is checked before the body is entered
  | call _ hd _ => exact hd
  | enter h _ => exact (Composed.charge.callDepth_of_ok h).trans_le hm
  | next h _ hl =>
    have hcharge := Composed.charge.callDepth_of_ok h
    exact (((composed_entering _ _).callDepth_of_ok hl).trans hcharge).trans_le hm

lemma Holds.callDepth_le (h : Holds env x m y n)
    (hm : m.callDepth ≤ env.settings.maxCallDepth) : n.callDepth ≤ env.settings.maxCallDepth := by
  induction h with
  | whole => exact hm
  | part _ hs ih => exact hs.callDepth_le ih

/-- The machine is `n` at some moment in the course of running `x` from `m`, at any depth. -/
def Moment (env : Environment) (x : Task) (m n : Machine) : Prop :=
  ∃ y k, Holds env x m y k ∧ Meets env y.run k n

end Task

/-! ### Calls at the limit -/

section Limit

variable {env : Environment} {inputs : List (Except Misuse Text)} {args : List Value}
  {n n' : Machine}

/-- A call at the limit fails as soon as its arguments are known. What the lines of the procedure
are, and how lines are executed, is not asked. -/
lemma Logo.call_at_limit (h : n.callDepth = env.settings.maxCallDepth)
    (ha : arguments inputs env n = .ok args n') (enter : Text → Exec Directive) (q : Procedure) :
    call enter q inputs env n =
      .error (.recursionLimit q.name env.settings.maxCallDepth) n' := by
  have hd := (quiet_arguments inputs).composed.callDepth_of_ok ha
  have hif : env.settings.maxCallDepth < n'.callDepth + 1 := by omega
  refine (bind_of_ok ha).trans ?_
  change (if env.settings.maxCallDepth < n'.callDepth + 1 then _ else _ : Exec Directive) env n' = _
  rw [if_pos hif]
  rfl

lemma Task.not_starts_at_limit (h : n.callDepth = env.settings.maxCallDepth) (room : Nat)
    (verb : Text) (q : Procedure) (y : Task) (k : Machine) :
    ¬ Starts env (.sentence room (.simple (.call verb q inputs))) n y k := by
  intro hs
  cases hs with
  | call ha hd _ =>
    have hargs := (Logo.quiet_arguments inputs).composed.callDepth_of_ok ha
    omega

end Limit

/-! ### Lines below the limit -/

/-- Executes a line by `enter`, but does `instead` where calls are deeper than they may be. -/
def guarded (instead enter : Text → Exec Directive) (t : Text) : Exec Directive := fun env m =>
  if env.settings.maxCallDepth < m.callDepth then instead t env m else enter t env m

/-- Executes the text of a command where every line is guarded. -/
def executeGuarded (instead : Text → Exec Directive) : (room : Nat) → Text → Exec Directive
  | 0 => guarded instead fun t => do (Command.read (← program) t).run instead
  | room + 1 => guarded instead fun t => do
    (Command.read (← program) t).run (executeGuarded instead room)

lemma guarded_of_le {instead enter : Text → Exec Directive} {t : Text} {env : Environment}
    {m : Machine} (hm : m.callDepth ≤ env.settings.maxCallDepth) :
    guarded instead enter t env m = enter t env m :=
  if_neg (Nat.not_lt.2 hm)

/-- No line is executed deeper than calls may be, so what would be done there makes no
difference. -/
lemma executeGuarded_eq (instead : Text → Exec Directive) {env : Environment} {m : Machine}
    {room : Nat} (hm : m.callDepth ≤ env.settings.maxCallDepth)
    (hroom : env.settings.maxCallDepth ≤ m.callDepth + room) (t : Text) :
    executeGuarded instead room t env m = execute room t env m := by
  induction room generalizing m t with
  | zero =>
    refine (guarded_of_le hm).trans (Alike.bind .program (.refl _) (fun p => ?_) m rfl).symm
    exact Command.alike_run (composed_entering 0) (fun hd => absurd hd (Nat.not_lt.2 hroom)) _
  | succ room ih =>
    refine (guarded_of_le hm).trans (Alike.bind .program (.refl _) (fun p => ?_) m rfl).symm
    refine Command.alike_run (composed_execute room) (fun hd u n hn => ?_) _
    exact (ih (by omega) (by omega) u).symm

/-! ### Balance -/

/-- Executing `t` from `m` keeps within the limit of calls and comes back to where it began. -/
structure Balanced (env : Environment) (room : Nat) (t : Text) (m : Machine) : Prop where
  /-- The depth at the end is the depth at the beginning, also after a failure. -/
  restored : (final (execute room t env m)).callDepth = m.callDepth
  /-- The depth is within the limit at every moment. -/
  within : ∀ n, Task.Moment env (.line room t) m n → n.callDepth ≤ env.settings.maxCallDepth
  /-- No line of a procedure is executed below the limit. -/
  unguarded : ∀ instead, executeGuarded instead room t env m = execute room t env m
  /-- A call at the limit ends the program when its arguments are known. -/
  refused : ∀ {inputs args n n'}, n.callDepth = env.settings.maxCallDepth →
    Logo.arguments inputs env n = .ok args n' → ∀ q : Procedure,
      (∀ enter, Logo.call enter q inputs env n =
        .error (.recursionLimit q.name env.settings.maxCallDepth) n') ∧
      (ExecError.recursionLimit q.name env.settings.maxCallDepth).isFatal = true ∧
      ∀ room verb y k, ¬ Task.Starts env (.sentence room (.simple (.call verb q inputs))) n y k

/-- **Calls are balanced.** Wherever a command is executed within the limit of calls, with room for
them up to the limit, the depth never passes the limit and is the same after the command. -/
theorem execute_balanced {env : Environment} {m : Machine} {room : Nat}
    (hm : m.callDepth ≤ env.settings.maxCallDepth)
    (hroom : env.settings.maxCallDepth ≤ m.callDepth + room) (t : Text) :
    Balanced env room t m where
  restored := (composed_execute room t).callDepth_eq env m
  within n h := by
    obtain ⟨y, k, hy, hn⟩ := h
    rw [hn.callDepth_eq]
    exact hy.callDepth_le hm
  unguarded instead := executeGuarded_eq instead hm hroom t
  refused h ha q :=
    ⟨fun enter => Logo.call_at_limit h ha enter q, rfl, fun room verb y k =>
      Task.not_starts_at_limit h room verb q y k⟩

/-- A word that only names a procedure without parameters is a call of it. -/
lemma Command.read_call {p : Program} {w : Text} {q : Procedure} (hne : w ≠ [])
    (hblank : ∀ c ∈ w, Text.isBlank c = false) (hmark : ∀ c ∈ w, Logo.isMark c = false)
    (hclass : Family.classify w = .unknown) (hverb : Logo.Verb.ofName? (Text.upper w) = none)
    (hq : p.procedure? w = some q) (hparams : q.params = []) :
    read p w = .logo [.simple (.call w q [])] := by
  have hwords : Text.words w = [w] := Text.words_of_not_blank hne hblank
  have hfirst : Text.firstWord w = w := by
    rw [Text.firstWord, hwords]
    rfl
  rw [read, (Text.solid_of_not_blank hne hblank).trim_eq, hclass]
  dsimp only
  rw [hfirst, hq, Option.isSome_some, if_pos rfl, readBlock, Logo.splitWords_eq_words hmark, hwords]
  dsimp only
  rw [List.map_singleton, Logo.sentences_call hverb hq hparams, Logo.sentences]

/-- A procedure that calls itself, where calls may be one deep. The limit is reached. -/
theorem execute_balanced_recursive :
    ∃ (p : Program) (n : Machine), Program.load "P\nTO P\nP\nEND".toList = .ok p ∧
      Task.Moment ⟨p, { maxCallDepth := 1 }, 0⟩ (.line 1 "P".toList) default n ∧
      n.callDepth = 1 ∧ Balanced ⟨p, { maxCallDepth := 1 }, 0⟩ 1 "P".toList default := by
  obtain ⟨p, q, hload, hq, hparams, hbody⟩ : ∃ (p : Program) (q : Procedure),
      Program.load "P\nTO P\nP\nEND".toList = .ok p ∧ p.procedure? "P".toList = some q ∧
        q.params = [] ∧ q.body = ["P".toList] :=
    ⟨_, ⟨"P".toList, [], ["P".toList], 1, 3⟩, rfl, by decide +kernel, rfl, rfl⟩
  have hread : Command.read p "P".toList = .logo [.simple (.call "P".toList q [])] :=
    Command.read_call (by simp) (List.forall_mem_singleton.2 rfl) (List.forall_mem_singleton.2 rfl)
      (by decide) rfl hq hparams
  have hlines : Logo.substituteAll (q.params.zip []) q.body = .ok ["P".toList] := by
    rw [hparams, hbody]
    cbv
  have hcommand : Task.Starts ⟨p, { maxCallDepth := 1 }, 0⟩ (.line 1 "P".toList) default
      (.command 1 (.logo [.simple (.call "P".toList q [])])) default := hread ▸ .read
  have hcall : Task.Holds ⟨p, { maxCallDepth := 1 }, 0⟩ (.line 1 "P".toList) default
      (.sentence 1 (.simple (.call "P".toList q []))) default :=
    ((Task.Holds.whole.part hcommand).part .logo).part (.first rfl)
  refine ⟨p, _, hload, ⟨_, _, hcall.part (.call rfl (Nat.le_refl 1) hlines), .start⟩, rfl, ?_⟩
  exact execute_balanced (Nat.zero_le 1) (Nat.le_refl 1) "P".toList

end Courseware
