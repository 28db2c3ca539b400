import Courseware.Proofs.Command.Nesting
import Courseware.Proofs.Command.Steadiness

/-!
The commands that are executed in the course of a line, one after the other.

A command that holds others comes before them. The verdict passes from each command to the next
as the command leaves it.
-/

namespace Courseware

open Exec

/-- A command that is executed, with where it is executed and on which machine. -/
structure Deed where
  task : Task
  env : Environment
  machine : Machine

/-- What comes after a computation, if it does not fail. -/
def Exec.follow {α β : Type} (r : EStateM.Result ExecError Machine α)
    (f : α → Machine → List β) : List β :=
  match r with
  | .ok a m => f a m
  | .error _ _ => []

namespace Logo

section

variable (env : Environment) (room : Nat) (inner : Text → Machine → List Deed)

/-- The commands of the lines of a procedure, where `inner` gives those of a line. -/
def bodyDeeds : List Text → Machine → List Deed
  | [], _ => []
  | line :: lines, m =>
    follow (charge env m) fun _ m =>
      if Text.sameWord (Text.trim line) "STOP".toList then [⟨.line room line, env, m⟩]
      else inner line m ++ follow (entering room line env m) fun d m =>
        if d = .next then bodyDeeds lines m else []

/-- The commands of a procedure that is called, unless the call is refused. -/
def callDeeds (p : Procedure) (inputs : List (Except Misuse Text)) (m : Machine) : List Deed :=
  follow (arguments inputs env m) fun args m =>
    if env.settings.maxCallDepth < m.callDepth + 1 then []
    else
      match substituteAll (p.params.zip args) p.body with
      | .ok body => bodyDeeds env room inner body { m with callDepth := m.callDepth + 1 }
      | .error _ => []

/-- What a simple command holds: the procedure that it calls. -/
def simpleDeeds : Simple → Machine → List Deed
  | .call _ p inputs, m => callDeeds env room inner p inputs m
  | _, _ => []

/-- The commands of passes, where `deeds` gives those of one. -/
def passesDeeds (pass : Nat → Exec Directive) (deeds : Nat → Machine → List Deed) :
    (left i : Nat) → Machine → List Deed
  | 0, _, _ => []
  | left + 1, i, m =>
    deeds i m ++ follow (pass i env m) fun d m =>
      if d = .next then passesDeeds pass deeds left (i + 1) m else []

mutual

def sentenceDeeds : Sentence → Machine → List Deed
  | .simple s, m =>
    ⟨.sentence room (.simple s), env, m⟩ :: simpleDeeds env room inner s m
  | .repeatBlock count body, m =>
    ⟨.sentence room (.repeatBlock count body), env, m⟩ ::
      follow (repeatCount count env m) fun n m =>
        passesDeeds env (pass (entering room) body) (fun i m =>
          follow (Task.announce body i env m) fun _ m => blockDeeds body true m) n 1 m
  | .ifBlock condition body, m =>
    ⟨.sentence room (.ifBlock condition body), env, m⟩ ::
      follow (resolve condition env m) fun v m => if v.truthy then blockDeeds body true m else []
  | .stray e, m => [⟨.sentence room (.stray e), env, m⟩]

def blockDeeds : List Sentence → (counted : Bool) → Machine → List Deed
  | [], _, _ => []
  | s :: rest, counted, m =>
    follow (Task.count s counted env m) fun _ m =>
      sentenceDeeds s m ++ follow (s.run (entering room) env m) fun d m =>
        if d = .next then blockDeeds rest true m else []

end

end

end Logo

/-- The commands of a command: itself, unless it only leads to others, and what it holds. -/
def Command.deeds (env : Environment) (room : Nat) (inner : Text → Machine → List Deed) :
    Command → Machine → List Deed
  | .skip, _ => []
  | .jumpTo _, _ => []
  | .nested c, m => follow (charge env m) fun _ m => c.deeds env room inner m
  | .logo ss, m => Logo.blockDeeds env room inner ss false m
  | .ifThen t yes no, m =>
    ⟨.command room (.ifThen t yes no), env, m⟩ ::
      follow (condition t env m) fun b m =>
        if b then yes.deeds env room inner m else no.deeds env room inner m
  | .ifBlock t body, m =>
    ⟨.command room (.ifBlock t body), env, m⟩ ::
      follow (Logo.expanded t env m) fun u m =>
        match body with
        | none => []
        | some ss =>
          follow (condition u env m) fun b m =>
            if b then Logo.blockDeeds env room inner ss true m else []
  | c, m => [⟨.command room c, env, m⟩]

/-- The commands that are executed in the course of a line. -/
def lineDeeds (env : Environment) : (room : Nat) → Text → Machine → List Deed
  | 0, t, m => (Command.read env.program t).deeds env 0 (fun _ _ => []) m
  | room + 1, t, m => (Command.read env.program t).deeds env (room + 1) (lineDeeds env room) m

/-! ### What a command does to the verdict -/

/-- What a command does to the verdict by itself. -/
def Deed.op? (d : Deed) : Option Verdict.Op :=
  match d.task with
  | .command _ (.pilot c) => c.op? d.env d.machine
  | _ => none

/-- From the verdict `v` the commands pass the verdict on from one to the next, up to `v'`. -/
inductive Passes : (v : Verdict) → List Deed → (v' : Verdict) → Prop where
  | nil {v : Verdict} : Passes v [] v
  | cons {d : Deed} {ds : List Deed} {v v' : Verdict} (hd : d.machine.verdict = v)
      (h : Passes (v.replay d.op?.toList) ds v') : Passes v (d :: ds) v'

namespace Passes

variable {α : Type} {v u v' : Verdict} {ds ds' : List Deed} {d : Deed} {env : Environment}
  {m : Machine}

lemma append (h : Passes v ds u) (h' : Passes u ds' v') : Passes v (ds ++ ds') v' := by
  induction h with
  | nil => exact h'
  | cons hd _ ih => exact .cons hd (ih h')

lemma of_eq (h : v' = v) : Passes v [] v' := h ▸ .nil

/-- A command that does nothing to the verdict by itself. -/
lemma idle {task : Task} (hd : Deed.op? ⟨task, env, m⟩ = none) (h : Passes m.verdict ds v') :
    Passes m.verdict (⟨task, env, m⟩ :: ds) v' := by
  refine .cons rfl ?_
  rw [hd]
  exact h

/-- Commands in the course of a computation, and then those of what follows it. -/
lemma bind {x : Exec α} {f : α → Machine → List Deed} {g : α → Exec Directive}
    (hx : Passes m.verdict ds (final (x env m)).verdict)
    (hf : ∀ a n, x env m = .ok a n → Passes n.verdict (f a n) (final (g a env n)).verdict) :
    Passes m.verdict (ds ++ follow (x env m) f) (final ((x >>= g) env m)).verdict := by
  cases hr : x env m with
  | ok a n =>
    rw [hr] at hx
    rw [bind_of_ok hr]
    exact hx.append (hf a n hr)
  | error e n =>
    rw [hr] at hx
    rw [bind_of_error hr]
    exact hx.append .nil

/-- A computation that leaves the verdict alone, and then the commands of what follows it. -/
lemma steady {x : Exec α} {f : α → Machine → List Deed} {g : α → Exec Directive}
    (hx : Steady x)
    (hf : ∀ a n, x env m = .ok a n → Passes n.verdict (f a n) (final (g a env n)).verdict) :
    Passes m.verdict (follow (x env m) f) (final ((x >>= g) env m)).verdict := by
  have hnone : Passes m.verdict [] (final (x env m)).verdict := of_eq (hx env m)
  exact bind hnone hf

lemma eq_replay (h : Passes v ds v') : v' = v.replay (ds.filterMap Deed.op?) := by
  induction h with
  | nil => rfl
  | @cons d ds v v' _ _ ih =>
    rw [ih, ← Verdict.replay_append]
    cases ho : d.op? <;> simp [ho]

/-- The verdict that a command meets. -/
lemma verdict_eq {before after : List Deed} (h : Passes v (before ++ d :: after) v') :
    d.machine.verdict = v.replay (before.filterMap Deed.op?) := by
  induction before generalizing v with
  | nil =>
    cases h with
    | cons hd _ => exact hd
  | cons b before ih =>
    cases h with
    | cons _ h =>
      rw [ih h, ← Verdict.replay_append]
      cases ho : b.op? <;> simp [ho]

end Passes

namespace Logo

variable {env : Environment} {room : Nat} {inner : Text → Machine → List Deed}

lemma passes_body
    (hinner : ∀ t m, Passes m.verdict (inner t m) (final (entering room t env m)).verdict)
    (lines : List Text) (m : Machine) :
    Passes m.verdict (bodyDeeds env room inner lines m)
      (final (runBody (entering room) lines env m)).verdict := by
  induction lines generalizing m with
  | nil => exact .nil
  | cons line lines ih =>
    rw [bodyDeeds, runBody]
    refine .steady .charge fun _ n _ => ?_
    by_cases hs : Text.sameWord (Text.trim line) "STOP".toList = true
    · rw [if_pos hs, if_pos hs]
      -- the line that ends the procedure is carried out here, and nothing after it
      exact .idle rfl .nil
    · rw [if_neg hs, if_neg hs]
      refine .bind (hinner line n) fun d k _ => ?_
      cases d with
      | next => exact ih k
      | _ => exact .nil

lemma passes_call
    (hinner : ∀ t m, Passes m.verdict (inner t m) (final (entering room t env m)).verdict)
    (p : Procedure) (inputs : List (Except Misuse Text)) (m : Machine) :
    Passes m.verdict (callDeeds env room inner p inputs m)
      (final (call (entering room) p inputs env m)).verdict := by
  refine .steady (.ofQuiet (quiet_arguments inputs)) fun args n _ => ?_
  change Passes n.verdict _ (final ((if env.settings.maxCallDepth < n.callDepth + 1 then _ else _ :
    Exec Directive) env n)).verdict
  by_cases hd : env.settings.maxCallDepth < n.callDepth + 1
  · rw [if_pos hd, if_pos hd]
    exact .nil
  · rw [if_neg hd, if_neg hd]
    cases hb : substituteAll (p.params.zip args) p.body with
    | error e => exact .nil
    | ok body =>
      -- the depth is no part of the verdict
      change Passes n.verdict _ (final (deeper (runBody (entering room) body) env n)).verdict
      rw [deeper_eq]
      obtain ⟨o, ho⟩ := final_finish (fun _ k => { k with callDepth := k.callDepth - 1 }) id
        (runBody (entering room) body env { n with callDepth := n.callDepth + 1 })
      rw [ho]
      exact passes_body hinner body { n with callDepth := n.callDepth + 1 }

lemma passes_passes {pass : Nat → Exec Directive} {deeds : Nat → Machine → List Deed}
    (hpass : ∀ i m, Passes m.verdict (deeds i m) (final (pass i env m)).verdict)
    (left i : Nat) (m : Machine) :
    Passes m.verdict (passesDeeds env pass deeds left i m)
      (final (repeatFrom pass left i env m)).verdict := by
  induction left generalizing i m with
  | zero => exact .nil
  | succ left ih =>
    rw [passesDeeds, repeatFrom]
    refine .bind (hpass i m) fun d n _ => ?_
    cases d with
    | next => exact ih (i + 1) n
    | _ => exact .nil

lemma steady_count (s : Sentence) (counted : Bool) : Steady (Task.count s counted) :=
  .ite (fun _ => .charge) fun _ => .pure _

lemma steady_announce (body : List Sentence) (i : Nat) : Steady (Task.announce body i) :=
  .ite (fun _ => .bind .charge fun _ => .setVariable _ _) fun _ => .setVariable _ _

/-- The first command of a block is counted before the rest of it runs. -/
lemma runAll_eq (enter : Text → Exec Directive) (s : Sentence) (rest : List Sentence)
    (counted : Bool) :
    runAll enter (s :: rest) counted = (do
      Task.count s counted
      match ← s.run enter with
      | .next => runAll enter rest true
      | d => return d) := by
  rw [runAll, Task.count]
  split <;> rfl

lemma pass_eq (enter : Text → Exec Directive) (body : List Sentence) (i : Nat) :
    pass enter body i = (do
      Task.announce body i
      runAll enter body true) := by
  unfold pass Task.announce
  split
  · exact (bind_assoc _ _ _).symm
  · rfl

mutual

theorem passes_sentence
    (hinner : ∀ t m, Passes m.verdict (inner t m) (final (entering room t env m)).verdict)
    (s : Sentence) (m : Machine) :
    Passes m.verdict (sentenceDeeds env room inner s m)
      (final (s.run (entering room) env m)).verdict := by
  cases s with
  | simple s =>
    rw [sentenceDeeds, Sentence.run]
    refine .idle rfl ?_
    cases s with
    | call verb p inputs => exact passes_call hinner p inputs m
    -- only a call holds commands of its own
    | _ => exact .of_eq (steady_simple (fun _ _ _ h => by cases h) _ env m)
  | repeatBlock count body =>
    rw [sentenceDeeds, run_repeatBlock]
    refine .idle rfl (.steady (.ofQuiet (quiet_repeatCount count)) fun n k _ => ?_)
    refine passes_passes (fun i m => ?_) n 1 k
    rw [pass_eq]
    exact .steady (steady_announce body i) fun _ n _ => passes_block hinner body true n
  | ifBlock condition body =>
    rw [sentenceDeeds, Sentence.run]
    refine .idle rfl (.steady (.ofQuiet (quiet_resolve condition)) fun v n _ => ?_)
    by_cases hv : v.truthy = true
    · rw [if_pos hv, if_pos hv]
      exact passes_block hinner body true n
    · rw [if_neg hv, if_neg hv]
      exact .nil
  | stray e =>
    rw [sentenceDeeds]
    exact .idle rfl .nil

theorem passes_block
    (hinner : ∀ t m, Passes m.verdict (inner t m) (final (entering room t env m)).verdict)
    (ss : List Sentence) (counted : Bool) (m : Machine) :
    Passes m.verdict (blockDeeds env room inner ss counted m)
      (final (runAll (entering room) ss counted env m)).verdict := by
  cases ss with
  | nil => exact .nil
  | cons s rest =>
    rw [blockDeeds, runAll_eq]
    refine .steady (steady_count s counted) fun _ n _ => ?_
    refine .bind (passes_sentence hinner s n) fun d k _ => ?_
    cases d with
    | next => exact passes_block hinner rest true k
    | _ => exact .nil

end

end Logo

lemma passes_command {env : Environment} {room : Nat} {inner : Text → Machine → List Deed}
    (hinner : ∀ t m, Passes m.verdict (inner t m) (final (entering room t env m)).verdict)
    (c : Command) (m : Machine) :
    Passes m.verdict (c.deeds env room inner m) (final (c.run (entering room) env m)).verdict := by
  induction c generalizing m with
  | skip => exact .nil
  | jumpTo t =>
    exact .of_eq (Steady.bind (.ofQuiet (.target t)) (fun _ => .pure _) env m)
  | nested c ih => exact .steady .charge fun _ n _ => ih n
  | logo ss => exact Logo.passes_block hinner ss false m
  | ifThen t yes no hyes hno =>
    refine .idle rfl (.steady (.ofQuiet (.condition t)) fun b n _ => ?_)
    cases b with
    | true => exact hyes n
    | false => exact hno n
  | ifBlock t body =>
    refine .idle rfl (.steady (.ofQuiet (Logo.quiet_expanded t)) fun u n _ => ?_)
    cases body with
    | none => exact .nil
    | some ss =>
      refine .steady (.ofQuiet (.condition u)) fun b k _ => ?_
      cases b with
      | true => exact Logo.passes_block hinner ss true k
      | false => exact .nil
  | unknown t => exact .idle rfl .nil
  | basic s => exact .idle rfl (.of_eq (Basic.steady_run s env m))
  | pilot c => exact .cons rfl (.of_eq (Pilot.verdict_run c env m))

/-- **The verdict passes from command to command in the course of a line.** -/
theorem passes_line (env : Environment) (room : Nat) (t : Text) (m : Machine) :
    Passes m.verdict (lineDeeds env room t m) (final (execute room t env m)).verdict := by
  induction room generalizing t m with
  | zero => exact passes_command (fun _ _ => .nil) _ m
  | succ room ih => exact passes_command ih _ m

end Courseware
