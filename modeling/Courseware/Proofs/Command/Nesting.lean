import Courseware.Proofs.Command.Composition

/-!
Commands inside commands.

A line may be a command that holds others: branches, blocks of commands of Logo, repetitions, and
calls of procedures, whose lines may again be any commands. What is run in the course of running
a line, and on which machine it is begun, is given by single steps from one of these tasks to the
next, each with the computation that comes before. Where one of them jumps to, the line jumps to.
-/

namespace Courseware

open Exec

/-- How a line of a procedure is executed where calls have this much room. -/
def entering : (room : Nat) → Text → Exec Directive
  | 0 => fun t => fail (.unknownCommand t)
  | room + 1 => execute room

lemma execute_eq_entering (room : Nat) (t : Text) (env : Environment) (m : Machine) :
    execute room t env m = (Command.read env.program t).run (entering room) env m := by
  cases room <;> rfl

/-- What is run in the course of running a line, with the room that there is for calls. -/
inductive Task where
  | line (room : Nat) (t : Text)
  | command (room : Nat) (c : Command)
  | sentence (room : Nat) (s : Logo.Sentence)
  /-- Commands of Logo, of which the first is counted or not. -/
  | block (room : Nat) (ss : List Logo.Sentence) (counted : Bool)
  /-- Passes over a block that are left, with the number of the next. -/
  | passes (room : Nat) (body : List Logo.Sentence) (left i : Nat)
  /-- The lines of a procedure that are left. -/
  | procedure (room : Nat) (lines : List Text)

namespace Task

def run : Task → Exec Directive
  | .line room t => execute room t
  | .command room c => c.run (entering room)
  | .sentence room s => s.run (entering room)
  | .block room ss counted => Logo.runAll (entering room) ss counted
  | .passes room body left i => Logo.repeatFrom (Logo.pass (entering room) body) left i
  | .procedure room lines => Logo.runBody (entering room) lines

/-- Counts a command of a block, if it is to be counted. -/
def count (s : Logo.Sentence) (counted : Bool) : Exec Unit :=
  if counted && s.isCounted then charge else pure ()

/-- What comes before the block in a pass over it. -/
def announce (body : List Logo.Sentence) (i : Nat) : Exec Unit := do
  if body.isEmpty then charge
  setVariable "REPCOUNT".toList (.integer (Int64.ofNat i))

/-- `Starts env x m y n` says that running `x` from the machine `m` leads to running `y` from
`n`, with no task in between. -/
inductive Starts (env : Environment) : Task → Machine → Task → Machine → Prop where
  | read {room : Nat} {t : Text} {m : Machine} :
      Starts env (.line room t) m (.command room (Command.read env.program t)) m
  | nested {room : Nat} {c : Command} {m m' : Machine} (h : charge env m = .ok () m') :
      Starts env (.command room (.nested c)) m (.command room c) m'
  | branch {room : Nat} {t : Text} {yes no : Command} {b : Bool} {m m' : Machine}
      (h : condition t env m = .ok b m') :
      Starts env (.command room (.ifThen t yes no)) m (.command room (if b then yes else no)) m'
  | logo {room : Nat} {ss : List Logo.Sentence} {m : Machine} :
      Starts env (.command room (.logo ss)) m (.block room ss false) m
  | guarded {room : Nat} {t u : Text} {ss : List Logo.Sentence} {m m' m'' : Machine}
      (ht : Logo.expanded t env m = .ok u m') (h : condition u env m' = .ok true m'') :
      Starts env (.command room (.ifBlock t (some ss))) m (.block room ss true) m''
  | first {room : Nat} {s : Logo.Sentence} {rest : List Logo.Sentence} {counted : Bool}
      {m m' : Machine} (h : count s counted env m = .ok () m') :
      Starts env (.block room (s :: rest) counted) m (.sentence room s) m'
  | rest {room : Nat} {s : Logo.Sentence} {rest : List Logo.Sentence} {counted : Bool}
      {m m' m'' : Machine} (h : count s counted env m = .ok () m')
      (hs : s.run (entering room) env m' = .ok .next m'') :
      Starts env (.block room (s :: rest) counted) m (.block room rest true) m''
  | conditional {room : Nat} {t : Text} {v : Value} {body : List Logo.Sentence} {m m' : Machine}
      (h : Logo.resolve t env m = .ok v m') (hv : v.truthy = true) :
      Starts env (.sentence room (.ifBlock t body)) m (.block room body true) m'
  | repetition {room : Nat} {t : Text} {n : Nat} {body : List Logo.Sentence} {m m' : Machine}
      (h : Logo.repeatCount t env m = .ok n m') :
      Starts env (.sentence room (.repeatBlock t body)) m (.passes room body n 1) m'
  | pass {room : Nat} {body : List Logo.Sentence} {left i : Nat} {m m' : Machine}
      (h : announce body i env m = .ok () m') :
      Starts env (.passes room body (left + 1) i) m (.block room body true) m'
  | again {room : Nat} {body : List Logo.Sentence} {left i : Nat} {m m' : Machine}
      (h : Logo.pass (entering room) body i env m = .ok .next m') :
      Starts env (.passes room body (left + 1) i) m (.passes room body left (i + 1)) m'
  | call {room : Nat} {verb : Text} {q : Procedure} {inputs : List (Except Misuse Text)}
      {args : List Value} {lines : List Text} {m m' : Machine}
      (ha : Logo.arguments inputs env m = .ok args m')
      (hd : m'.callDepth + 1 ≤ env.settings.maxCallDepth)
      (hl : Logo.substituteAll (q.params.zip args) q.body = .ok lines) :
      Starts env (.sentence room (.simple (.call verb q inputs))) m (.procedure room lines)
        { m' with callDepth := m'.callDepth + 1 }
  | enter {room : Nat} {line : Text} {lines : List Text} {m m' : Machine}
      (h : charge env m = .ok () m') (hs : Text.sameWord (Text.trim line) "STOP".toList = false) :
      Starts env (.procedure (room + 1) (line :: lines)) m (.line room line) m'
  | next {room : Nat} {line : Text} {lines : List Text} {m m' m'' : Machine}
      (h : charge env m = .ok () m') (hs : Text.sameWord (Text.trim line) "STOP".toList = false)
      (hl : entering room line env m' = .ok .next m'') :
      Starts env (.procedure room (line :: lines)) m (.procedure room lines) m''

/-- Running `x` from `m` leads to running `y` from `n`. -/
inductive Holds (env : Environment) (x : Task) (m : Machine) : Task → Machine → Prop where
  | whole : Holds env x m x m
  | part {y z : Task} {n k : Machine} (h : Holds env x m y n) (hs : Starts env y n z k) :
      Holds env x m z k

/-! ### Jumps inside a line -/

variable {env : Environment} {x y : Task} {m n n' : Machine} {i : Nat}

lemma runAll_of_count {enter : Text → Exec Directive} {s : Logo.Sentence}
    {rest : List Logo.Sentence} {counted : Bool} (h : count s counted env m = .ok () n) :
    Logo.runAll enter (s :: rest) counted env m =
      (do match ← s.run enter with
        | .next => Logo.runAll enter rest true
        | d => return d : Exec Directive) env n := by
  rw [Logo.runAll]
  unfold count at h
  split at h
  · next hc =>
    rw [if_pos hc]
    exact bind_of_ok h
  · next hc =>
    rw [if_neg hc]
    cases h
    rfl

lemma pass_of_announce {enter : Text → Exec Directive} {body : List Logo.Sentence}
    (h : announce body i env m = .ok () n) :
    Logo.pass enter body i env m = Logo.runAll enter body true env n := by
  unfold Logo.pass
  unfold announce at h
  split at h
  · next hc =>
    obtain ⟨u, k, hk, hn⟩ := ok_of_bind h
    rw [if_pos hc]
    exact (bind_of_ok hk).trans (bind_of_ok hn)
  · next hc =>
    rw [if_neg hc]
    exact bind_of_ok h

lemma runBody_of_charge {enter : Text → Exec Directive} {line : Text} {lines : List Text}
    (h : charge env m = .ok () n)
    (hs : Text.sameWord (Text.trim line) "STOP".toList = false) :
    Logo.runBody enter (line :: lines) env m =
      (do match ← enter line with
        | .next => Logo.runBody enter lines
        | .exit => return .next
        | d => return d : Exec Directive) env n := by
  rw [Logo.runBody]
  refine (bind_of_ok h).trans ?_
  rw [hs]
  rfl

/-- Where a task leads that is started, the one that starts it leads. -/
lemma jump_of_starts (h : Starts env x m y n) (hy : y.run env n = .ok (.jump i) n') :
    ∃ m', x.run env m = .ok (.jump i) m' := by
  cases h with
  | @read room t =>
    refine ⟨n', ?_⟩
    cases room <;> exact hy
  | nested h => exact ⟨n', (bind_of_ok h).trans hy⟩
  | @branch _ _ _ _ b _ _ h =>
    refine ⟨n', (bind_of_ok h).trans ?_⟩
    cases b <;> exact hy
  | logo => exact ⟨n', hy⟩
  | guarded ht h => exact ⟨n', (bind_of_ok ht).trans ((bind_of_ok h).trans hy)⟩
  | first h => exact ⟨n', (runAll_of_count h).trans (bind_of_ok hy)⟩
  | rest h hs => exact ⟨n', (runAll_of_count h).trans ((bind_of_ok hs).trans hy)⟩
  | conditional h hv =>
    refine ⟨n', ?_⟩
    rw [run, Logo.Sentence.run]
    refine (bind_of_ok h).trans ?_
    rw [hv]
    exact hy
  | repetition h =>
    refine ⟨n', ?_⟩
    rw [run, Logo.run_repeatBlock]
    exact (bind_of_ok h).trans hy
  | pass h => exact ⟨n', bind_of_ok ((pass_of_announce h).trans hy)⟩
  | again h => exact ⟨n', (bind_of_ok h).trans hy⟩
  | @call room _ q inputs args lines _ k ha hd hl =>
    -- a jump leads out of the procedure, whose depth is given back
    refine ⟨{ n' with callDepth := n'.callDepth - 1 }, ?_⟩
    have hshallow : ¬ env.settings.maxCallDepth < k.callDepth + 1 := Nat.not_lt.2 hd
    have hbody : deeper (Logo.runBody (entering room) lines) env k =
        .ok (.jump i) { n' with callDepth := n'.callDepth - 1 } := by
      have hlines : Logo.runBody (entering room) lines env
          { k with callDepth := k.callDepth + 1 } = .ok (.jump i) n' := hy
      rw [deeper_eq, hlines]
      rfl
    rw [run, Logo.Sentence.run]
    refine (bind_of_ok ha).trans ?_
    change (if env.settings.maxCallDepth < k.callDepth + 1 then _ else _ : Exec Directive) env k = _
    rw [if_neg hshallow, hl]
    exact hbody
  | enter h hs => exact ⟨n', (runBody_of_charge h hs).trans (bind_of_ok hy)⟩
  | next h hs hl => exact ⟨n', (runBody_of_charge h hs).trans ((bind_of_ok hl).trans hy)⟩

/-- **Where a command inside a line leads, the line leads.** -/
theorem jump_of_holds (h : Holds env x m y n) (hy : y.run env n = .ok (.jump i) n') :
    ∃ m', x.run env m = .ok (.jump i) m' := by
  induction h generalizing n' with
  | whole => exact ⟨n', hy⟩
  | part _ hs ih =>
    obtain ⟨k, hk⟩ := jump_of_starts hs hy
    exact ih hk

end Task

end Courseware
