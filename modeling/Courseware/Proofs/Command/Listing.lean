import Courseware.Proofs.Command.Deeds
import Mathlib.Data.List.Infix

/-!
The commands that are listed for a line are those that are executed.

A task that is started in the course of another has its commands listed among those of the
other, in one piece. So nothing that is executed is left out of the list. In turn each command of
the list is one that the line leads to, on the machine that is noted with it.
-/

namespace Courseware

open Exec

/-- The commands of a line of a procedure, where calls have this much room. -/
def enteringDeeds (env : Environment) : (room : Nat) → Text → Machine → List Deed
  | 0 => fun _ _ => []
  | room + 1 => lineDeeds env room

namespace Task

/-- The commands that are executed in the course of a task. -/
def deeds (env : Environment) : Task → Machine → List Deed
  | .line room t => lineDeeds env room t
  | .command room c => c.deeds env room (enteringDeeds env room)
  | .sentence room s => Logo.sentenceDeeds env room (enteringDeeds env room) s
  | .block room ss counted => Logo.blockDeeds env room (enteringDeeds env room) ss counted
  | .passes room body left i =>
    Logo.passesDeeds env (Logo.pass (entering room) body) (fun i m =>
      follow (announce body i env m) fun _ m =>
        Logo.blockDeeds env room (enteringDeeds env room) body true m) left i
  | .procedure room lines => Logo.bodyDeeds env room (enteringDeeds env room) lines

/-- Whether a task is itself a command, and does not only lead to commands. -/
def isCommand : Task → Bool
  | .command _ c =>
    match c with
    | .skip => false
    | .jumpTo _ => false
    | .nested _ => false
    | .logo _ => false
    | _ => true
  | .sentence .. => true
  | _ => false

/-- The command `d` is executed in the course of running `x` from the machine `m`. -/
inductive Executes (env : Environment) (x : Task) (m : Machine) : Deed → Prop where
  | command {y : Task} {n : Machine} (h : Holds env x m y n) (hy : y.isCommand = true) :
      Executes env x m ⟨y, env, n⟩
  /-- The command `STOP`, which is a command in procedures only. -/
  | stop {room : Nat} {line : Text} {lines : List Text} {n n' : Machine}
      (h : Holds env x m (.procedure room (line :: lines)) n) (hc : charge env n = .ok () n')
      (hs : Text.sameWord (Text.trim line) "STOP".toList = true) :
      Executes env x m ⟨.line room line, env, n'⟩

variable {α : Type} {env : Environment} {x y z : Task} {m n k : Machine} {d : Deed}

lemma lineDeeds_eq (env : Environment) (room : Nat) (t : Text) :
    lineDeeds env room t =
      (Command.read env.program t).deeds env room (enteringDeeds env room) := by
  cases room <;> rfl

/-! ### Everything that is executed is listed -/

lemma deeds_of_starts (h : Starts env x m y n) : y.deeds env n <:+: x.deeds env m := by
  cases h with
  | read => rw [deeds, deeds, lineDeeds_eq]
  | nested h =>
    rw [deeds, deeds, Command.deeds, h]
    exact List.infix_rfl
  | @branch _ _ _ _ b _ _ h =>
    rw [deeds, deeds, Command.deeds, h]
    cases b <;> exact List.infix_cons List.infix_rfl
  | logo => exact List.infix_rfl
  | guarded ht h =>
    rw [deeds, deeds, Command.deeds, ht]
    dsimp only [follow]
    rw [h]
    exact List.infix_cons List.infix_rfl
  | first h =>
    -- the parts of a block, a loop and a body stand one after the other
    rw [deeds, deeds, Logo.blockDeeds, h]
    exact (List.prefix_append _ _).isInfix
  | rest h hs =>
    rw [deeds, deeds, Logo.blockDeeds, h]
    dsimp only [follow]
    rw [hs]
    exact (List.suffix_append _ _).isInfix
  | conditional h hv =>
    rw [deeds, deeds, Logo.sentenceDeeds, h]
    dsimp only [follow]
    rw [if_pos hv]
    exact List.infix_cons List.infix_rfl
  | repetition h =>
    rw [deeds, deeds, Logo.sentenceDeeds, h]
    exact List.infix_cons List.infix_rfl
  | pass h =>
    rw [deeds, deeds, Logo.passesDeeds, h]
    exact (List.prefix_append _ _).isInfix
  | again h =>
    rw [deeds, deeds, Logo.passesDeeds, h]
    exact (List.suffix_append _ _).isInfix
  | @call room verb q inputs args lines _ k ha hd hl =>
    have hcall : Logo.callDeeds env room (enteringDeeds env room) q inputs m =
        Logo.bodyDeeds env room (enteringDeeds env room) lines
          { k with callDepth := k.callDepth + 1 } := by
      rw [Logo.callDeeds, ha]
      dsimp only [follow]
      rw [if_neg (Nat.not_lt.2 hd), hl]
    rw [deeds, deeds, Logo.sentenceDeeds, Logo.simpleDeeds, hcall]
    exact List.infix_cons List.infix_rfl
  | enter h hs =>
    rw [deeds, deeds, Logo.bodyDeeds, h]
    dsimp only [follow]
    rw [hs]
    exact (List.prefix_append _ _).isInfix
  | next h hs hl =>
    rw [deeds, deeds, Logo.bodyDeeds, h]
    dsimp only [follow]
    rw [hs, hl]
    exact (List.suffix_append _ _).isInfix

lemma deeds_of_holds (h : Holds env x m y n) : y.deeds env n <:+: x.deeds env m := by
  induction h with
  | whole => exact List.infix_rfl
  | part _ hs ih => exact (deeds_of_starts hs).trans ih

/-- A command is the first of its own list. -/
lemma mem_deeds_self (hy : y.isCommand = true) : ⟨y, env, n⟩ ∈ y.deeds env n := by
  cases y with
  | command room c =>
    cases c with
    | skip => cases hy
    | jumpTo t => cases hy
    | nested c => cases hy
    | logo ss => cases hy
    | _ => exact List.mem_cons_self
  | sentence room s =>
    cases s <;> rw [deeds, Logo.sentenceDeeds] <;> exact List.mem_cons_self
  | _ => cases hy

lemma mem_deeds_of_executes (h : Executes env x m d) : d ∈ x.deeds env m := by
  cases h with
  | command h hy => exact (deeds_of_holds h).subset (mem_deeds_self hy)
  | stop h hc hs =>
    refine (deeds_of_holds h).subset ?_
    rw [deeds, Logo.bodyDeeds, hc]
    dsimp only [follow]
    rw [if_pos hs]
    exact List.mem_cons_self

/-! ### Everything that is listed is executed -/

lemma Holds.trans (h : Holds env x m y n) (h' : Holds env y n z k) : Holds env x m z k := by
  induction h' with
  | whole => exact h
  | part _ hs ih => exact ih.part hs

namespace Executes

lemma self (hx : x.isCommand = true) : Executes env x m ⟨x, env, m⟩ := .command .whole hx

lemma of_starts (hs : Starts env x m y n) (h : Executes env y n d) : Executes env x m d := by
  have hpart : Holds env x m y n := .part .whole hs
  cases h with
  | command h hy => exact .command (hpart.trans h) hy
  | stop h hc hstop => exact .stop (hpart.trans h) hc hstop

end Executes

lemma mem_follow {β : Type} {r : EStateM.Result ExecError Machine α} {f : α → Machine → List β}
    {b : β} : b ∈ follow r f ↔ ∃ a n, r = .ok a n ∧ b ∈ f a n := by
  cases r <;> simp [follow]

variable {room : Nat}

lemma executes_of_mem_body
    (hinner : ∀ r t n, room = r + 1 → d ∈ lineDeeds env r t n → Executes env (.line r t) n d)
    {lines : List Text} (h : d ∈ Logo.bodyDeeds env room (enteringDeeds env room) lines m) :
    Executes env (.procedure room lines) m d := by
  induction lines generalizing m with
  | nil => cases h
  | cons line lines ih =>
    rw [Logo.bodyDeeds] at h
    obtain ⟨_, n, hc, h⟩ := mem_follow.1 h
    cases hs : Text.sameWord (Text.trim line) "STOP".toList with
    | true =>
      rw [if_pos hs] at h
      obtain rfl := List.mem_singleton.1 h
      -- the line that ends the procedure is a deed of its own
      exact .stop .whole hc hs
    | false =>
      rw [hs] at h
      rcases List.mem_append.1 h with h | h
      · -- the commands of the line, or of the lines after it
        cases room with
        | zero => cases h
        | succ room => exact (hinner room line n rfl h).of_starts (.enter hc hs)
      · obtain ⟨d', k, hk, h⟩ := mem_follow.1 h
        split at h
        · next hd =>
          subst hd
          exact (ih h).of_starts (.next hc hs hk)
        · cases h

lemma executes_of_mem_call
    (hinner : ∀ r t n, room = r + 1 → d ∈ lineDeeds env r t n → Executes env (.line r t) n d)
    {verb : Text} {q : Procedure} {inputs : List (Except Misuse Text)}
    (h : d ∈ Logo.callDeeds env room (enteringDeeds env room) q inputs m) :
    Executes env (.sentence room (.simple (.call verb q inputs))) m d := by
  obtain ⟨args, n, ha, h⟩ := mem_follow.1 h
  split at h
  · cases h
  · next hd =>
    split at h
    · next lines hl =>
      exact (executes_of_mem_body hinner h).of_starts (.call ha (Nat.not_lt.1 hd) hl)
    · cases h

lemma executes_of_mem_passes {body : List Logo.Sentence}
    (hbody : ∀ n, d ∈ (Task.block room body true).deeds env n →
      Executes env (.block room body true) n d) {left i : Nat}
    (h : d ∈ (Task.passes room body left i).deeds env m) :
    Executes env (.passes room body left i) m d := by
  induction left generalizing i m with
  | zero => cases h
  | succ left ih =>
    rw [deeds, Logo.passesDeeds] at h
    rcases List.mem_append.1 h with h | h
    · obtain ⟨_, n, ha, h⟩ := mem_follow.1 h
      exact (hbody n h).of_starts (.pass ha)
    · -- later passes come only if this one goes on
      obtain ⟨d', n, hp, h⟩ := mem_follow.1 h
      split at h
      · next hd =>
        subst hd
        exact (ih h).of_starts (.again hp)
      · cases h

mutual

theorem executes_of_mem_sentence
    (hinner : ∀ r t n, room = r + 1 → d ∈ lineDeeds env r t n → Executes env (.line r t) n d)
    (s : Logo.Sentence) {m : Machine} (h : d ∈ (Task.sentence room s).deeds env m) :
    Executes env (.sentence room s) m d := by
  cases s with
  | simple s =>
    rw [deeds, Logo.sentenceDeeds] at h
    rcases List.mem_cons.1 h with rfl | h
    · exact .self rfl
    · cases s with
      | call verb q inputs => exact executes_of_mem_call hinner h
      | _ => cases h
  | repeatBlock count body =>
    rw [deeds, Logo.sentenceDeeds] at h
    rcases List.mem_cons.1 h with rfl | h
    · exact .self rfl
    · obtain ⟨n, k, hc, h⟩ := mem_follow.1 h
      exact (executes_of_mem_passes (fun _ => executes_of_mem_block hinner body true) h).of_starts
        (.repetition hc)
  | ifBlock condition body =>
    rw [deeds, Logo.sentenceDeeds] at h
    rcases List.mem_cons.1 h with rfl | h
    · exact .self rfl
    · obtain ⟨v, n, hc, h⟩ := mem_follow.1 h
      split at h
      · next hv => exact (executes_of_mem_block hinner body true h).of_starts (.conditional hc hv)
      · cases h
  | stray e =>
    rw [deeds, Logo.sentenceDeeds] at h
    obtain rfl := List.mem_singleton.1 h
    exact .self rfl

theorem executes_of_mem_block
    (hinner : ∀ r t n, room = r + 1 → d ∈ lineDeeds env r t n → Executes env (.line r t) n d)
    (ss : List Logo.Sentence) (counted : Bool) {m : Machine}
    (h : d ∈ (Task.block room ss counted).deeds env m) :
    Executes env (.block room ss counted) m d := by
  cases ss with
  | nil =>
    rw [deeds, Logo.blockDeeds] at h
    cases h
  | cons s rest =>
    rw [deeds, Logo.blockDeeds] at h
    obtain ⟨_, n, hc, h⟩ := mem_follow.1 h
    rcases List.mem_append.1 h with h | h
    · exact (executes_of_mem_sentence hinner s h).of_starts (.first hc)
    · obtain ⟨d', k, hs, h⟩ := mem_follow.1 h
      split at h
      · next hd =>
        subst hd
        exact (executes_of_mem_block hinner rest true h).of_starts (.rest hc hs)
      · cases h

end

lemma executes_of_mem_command
    (hinner : ∀ r t n, room = r + 1 → d ∈ lineDeeds env r t n → Executes env (.line r t) n d)
    {c : Command} (h : d ∈ (Task.command room c).deeds env m) :
    Executes env (.command room c) m d := by
  induction c generalizing m with
  | skip => cases h
  | jumpTo t => cases h
  | nested c ih =>
    obtain ⟨_, n, hc, h⟩ := mem_follow.1 h
    exact (ih h).of_starts (.nested hc)
  | logo ss => exact (executes_of_mem_block hinner ss false h).of_starts .logo
  | ifThen t yes no hyes hno =>
    rcases List.mem_cons.1 h with rfl | h
    · exact .self rfl
    · obtain ⟨b, n, hb, h⟩ := mem_follow.1 h
      cases b with
      | true => exact (hyes h).of_starts (.branch hb)
      | false => exact (hno h).of_starts (.branch hb)
  | ifBlock t body =>
    rcases List.mem_cons.1 h with rfl | h
    · exact .self rfl
    · obtain ⟨u, n, hu, h⟩ := mem_follow.1 h
      cases body with
      | none => cases h
      | some ss =>
        obtain ⟨b, k, hb, h⟩ := mem_follow.1 h
        cases b with
        | true => exact (executes_of_mem_block hinner ss true h).of_starts (.guarded hu hb)
        | false => cases h
  | _ =>
    obtain rfl := List.mem_singleton.1 h
    exact .self rfl

lemma executes_of_mem_line {room : Nat} {t : Text} (h : d ∈ lineDeeds env room t m) :
    Executes env (.line room t) m d := by
  induction room generalizing t m with
  | zero =>
    rw [lineDeeds_eq] at h
    exact (executes_of_mem_command (fun _ _ _ h => by cases h) h).of_starts .read
  | succ room ih =>
    rw [lineDeeds_eq] at h
    refine (executes_of_mem_command (fun r t n hr h => ?_) h).of_starts .read
    cases hr
    exact ih h

/-- **The commands listed for a line are those that are executed in the course of it.** -/
theorem mem_lineDeeds_iff (env : Environment) (room : Nat) (t : Text) (m : Machine) (d : Deed) :
    d ∈ lineDeeds env room t m ↔ Executes env (.line room t) m d :=
  ⟨executes_of_mem_line, mem_deeds_of_executes⟩

end Task

end Courseware
