import Courseware.Proofs.Command.Listing
import Courseware.Proofs.Logo.Brackets
import Mathlib.Logic.Relation

/-!
Brackets that do not match are found before anything is run.

A line is cut into words as a whole before its first command, but a block only when the command
that has it is read or run. In a line without quotes that makes no difference: what is cut off as a
block is balanced, and so are the blocks in it, down to the innermost. So running a line fails for
its brackets at once, with the machine as it was, or not at all, the lines of the procedures that
it calls apart.
-/

namespace Courseware

open Text

/-- Failures for brackets that do not match. -/
def Misuse.isUnbalanced : Misuse → Bool
  | unbalancedIf => true
  | unbalancedOpen => true
  | unbalancedClose => true
  | _ => false

/-! ### What computations fail for -/

namespace Exec

variable {α β : Type}

/-- Where `x` fails for brackets that do not match, then with one of the failures `es`. -/
def Finds (es : List Misuse) (x : Exec α) : Prop :=
  ∀ env m e m', x env m = .error (.misuse e) m' → e.isUnbalanced = true → e ∈ es

namespace Finds

variable {es es' : List Misuse} {x : Exec α} {f : α → Exec β}

lemma pure (a : α) : Finds es (pure a) := by
  intro env m e m' h
  cases h

lemma fail {e : ExecError} (he : ∀ m, e ≠ .misuse m) : Finds es (fail e : Exec α) := by
  intro env m e' m' h
  cases h
  exact absurd rfl (he e')

lemma misused {e : Misuse} (he : e.isUnbalanced = true → e ∈ es) :
    Finds es (misused e : Exec α) := by
  intro env m e' m' h
  cases h
  exact he

lemma bind (hx : Finds es x) (hf : ∀ a, Finds es (f a)) : Finds es (x >>= f) := by
  intro env m e m' h he
  rcases error_of_bind h with h | ⟨a, n, -, h⟩
  · exact hx env m e m' h he
  · exact hf a env n e m' h he

lemma mono (hx : Finds es x) (h : es ⊆ es') : Finds es' x :=
  fun env m e m' hr he => h (hx env m e m' hr he)

lemma fatally (hx : Finds es x) : Finds es (fatally x) := by
  intro env m e m' h
  rw [fatally_eq] at h
  cases hr : x env m with
  | ok a n =>
    rw [hr] at h
    cases h
  | error e' n =>
    rw [hr] at h
    cases e' with
    | misuse e' =>
      cases h
      exact hx env m _ _ hr
    | _ => cases h

lemma get {f : Machine → Exec β} (hf : ∀ m, Finds es (f m)) : Finds es (MonadState.get >>= f) :=
  fun env m => hf m env m

lemma charge : Finds es charge := by
  intro env m e m' h
  unfold Exec.charge at h
  split at h <;> cases h

lemma evaluate (t : Text) : Finds es (evaluate t) := by
  intro env m e m' h
  unfold Exec.evaluate at h
  split at h <;> cases h

lemma setVariable (name : Text) (v : Value) : Finds es (setVariable name v) := by
  intro env m e m' h
  cases h

lemma print (t : Text) : Finds es (print t) := by
  intro env m e m' h
  cases h

lemma draw (g : Turtle → Turtle) : Finds es (draw g) := by
  intro env m e m' h
  cases h

lemma interpolate (t : Text) : Finds es (interpolate t) := .get fun _ => .pure _

lemma program : Finds es program := by
  intro env m e m' h
  cases h

end Finds

end Exec

namespace Logo

open Exec

/-! ### Failures that are noted in what is read -/

/-- Why an input is not there. -/
def lacking {α : Type} : Except Misuse α → List Misuse
  | .ok _ => []
  | .error m => [m]

def Simple.faults : Simple → List Misuse
  | .motion _ _ inputs => inputs.flatMap lacking
  | .call _ _ inputs => inputs.flatMap lacking
  | .faulty m => [m]
  | _ => []

mutual

/-- The failures that a command stands for, and those in its block. -/
def Sentence.faults : Sentence → List Misuse
  | .simple s => s.faults
  | .repeatBlock _ body => faultsOf body
  | .ifBlock _ body => faultsOf body
  | .stray m => [m]

def faultsOf : List Sentence → List Misuse
  | [] => []
  | s :: rest => s.faults ++ faultsOf rest

end

/-! ### What single commands fail for -/

variable {es : List Misuse}

/-- A value that cannot be put into an expression is a text with both kinds of quotes. -/
lemma spliced_misuse {v : Value} {e : Misuse} (h : spliced v = .error e) :
    ∃ u, e = .bothQuotes u := by
  unfold spliced at h
  split at h
  · next u =>
    split at h
    · cases h
    · cases h
      exact ⟨u, rfl⟩
  · cases h

lemma expand_misuse {vars : Variables} {t : Text} {e : Misuse}
    (h : expand vars t = .error (.misuse e)) : ∃ u, e = .bothQuotes u := by
  fun_induction expand vars t with
  | case1 => cases h
  | case2 => cases h
  | case3 c r hc name v hv e' hsplice =>
    cases h
    exact spliced_misuse hsplice
  | case4 c r hc name v hv u hu ih => exact ih (eq_error_of_map h)
  | case5 c r hc ih => exact ih (eq_error_of_map h)

lemma substitute_misuse {args : List (Text × Value)} {t : Text} {e : Misuse}
    (h : substitute args t = .error e) : ∃ u, e = .bothQuotes u := by
  fun_induction substitute args t with
  | case1 => cases h
  | case2 r name rest _ ih => exact ih (eq_error_of_map h)
  | case3 r name v _ e' hsplice =>
    cases h
    exact spliced_misuse hsplice
  | case4 r name rest v _ u _ ih => exact ih (eq_error_of_map h)
  | case5 c r hc ih => exact ih (eq_error_of_map h)

lemma substituteAll_misuse {args : List (Text × Value)} {lines : List Text} {e : Misuse}
    (h : substituteAll args lines = .error e) : ∃ u, e = .bothQuotes u := by
  induction lines with
  | nil => cases h
  | cons line lines ih =>
    rw [substituteAll] at h
    split at h
    · next e' hline =>
      cases h
      exact substitute_misuse hline
    · exact ih (eq_error_of_map h)

lemma finds_expanded (t : Text) : Finds es (expanded t) := by
  refine .get fun m => ?_
  split
  · exact .pure _
  · next e he =>
    cases e with
    | misuse e =>
      obtain ⟨u, rfl⟩ := expand_misuse he
      exact .misused fun h => by cases h
    | _ => exact .fail fun _ h => by cases h

lemma finds_resolve (t : Text) : Finds es (resolve t) :=
  .bind (finds_expanded t) fun u => .evaluate u

lemma finds_taken {α : Type} (x : Except Misuse α) : Finds (lacking x) (taken x) := by
  cases x with
  | ok a => exact .pure a
  | error m => exact .misused fun _ => List.mem_singleton_self m

lemma finds_number (verb : Text) (i : Except Misuse Text) : Finds (lacking i) (number verb i) := by
  refine .bind (finds_taken i) fun t => .bind (finds_resolve t) fun v => ?_
  split
  · exact .pure _
  · exact .fail fun _ h => by cases h

lemma finds_numbers (verb : Text) (is : List (Except Misuse Text)) :
    Finds (is.flatMap lacking) (numbers verb is) := by
  induction is with
  | nil => exact .pure _
  | cons i is ih =>
    rw [List.flatMap_cons]
    exact .bind ((finds_number verb i).mono (List.subset_append_left _ _)) fun x =>
      .bind (ih.mono (List.subset_append_right _ _)) fun xs => .pure _

lemma finds_argument (i : Except Misuse Text) : Finds (lacking i) (argument i) := by
  refine .bind (finds_taken i) fun e => ?_
  split
  · exact .pure _
  · exact .fatally (finds_resolve e)

lemma finds_arguments (is : List (Except Misuse Text)) :
    Finds (is.flatMap lacking) (arguments is) := by
  induction is with
  | nil => exact .pure _
  | cons i is ih =>
    rw [List.flatMap_cons]
    exact .bind ((finds_argument i).mono (List.subset_append_left _ _)) fun v =>
      .bind (ih.mono (List.subset_append_right _ _)) fun vs => .pure _

lemma finds_setColor (v : Value) : Finds es (do
    match v with
    | .text name => draw (·.setColor (lower name))
    | v =>
      match v.toInteger? with
      | some n => draw (·.setColorIndex n)
      | none => misused .paletteIndex) := by
  split
  · exact .draw _
  · split
    · exact .draw _
    · exact .misused fun h => by cases h

lemma finds_color (t : Text) : Finds es (color t) := by
  unfold color
  dsimp only
  split
  · exact .bind (finds_resolve _) finds_setColor
  · split
    · exact .bind (.pure _) finds_setColor
    · exact .bind (.pure _) finds_setColor

lemma finds_printed (a : Arg) : Finds es (printed a) := by
  unfold printed
  split
  · exact .interpolate _
  · split
    · exact .pure _
    · exact .bind (finds_resolve _) fun v => .pure _

lemma finds_made (a : Arg) : Finds es (made a) := by
  unfold made
  split
  · exact .pure _
  · split
    · exact .pure _
    · exact finds_resolve _

/-- A simple command that calls no procedure fails for brackets only if that is noted in it. -/
lemma finds_simple {s : Simple} (hs : ∀ verb p inputs, s ≠ .call verb p inputs)
    (enter : Text → Exec Directive) : Finds s.faults (s.run enter) := by
  cases s with
  | motion verb m inputs =>
    exact .bind (finds_numbers verb inputs) fun xs => .bind (.draw _) fun _ => .pure _
  | gesture g => exact .bind (.draw _) fun _ => .pure _
  | color input => exact .bind (finds_color input) fun _ => .pure _
  | print input => exact .bind (finds_printed input) fun t => .bind (.print t) fun _ => .pure _
  | make name input =>
    exact .bind (finds_made input) fun v => .bind (.setVariable name v) fun _ => .pure _
  | stop => exact .pure _
  | define name =>
    refine .bind .program fun p => ?_
    split <;> exact .pure _
  | call verb p inputs => exact absurd rfl (hs verb p inputs)
  | unknown verb => exact .fail fun _ h => by cases h
  | faulty m => exact .misused fun _ => List.mem_singleton_self m

lemma finds_repeatCount (t : Text) : Finds es (repeatCount t) := by
  refine .bind (.fatally (finds_resolve t)) fun v => ?_
  split
  · exact .fail fun _ h => by cases h
  · exact .pure _

end Logo

/-! ### What a line fails for -/

namespace Task

open Exec

variable {env : Environment} {x y : Task} {m m' n : Machine} {e : Misuse} {room : Nat}

/-- In the course of running `x` from `m` a line of a procedure fails with `e`. -/
def Blames (env : Environment) (x : Task) (m : Machine) (e : Misuse) : Prop :=
  ∃ r u n n', Holds env x m (.line r u) n ∧ execute r u env n = .error (.misuse e) n'

lemma Blames.of_starts (hs : Starts env x m y n) (h : Blames env y n e) : Blames env x m e := by
  obtain ⟨r, u, k, k', hholds, hfails⟩ := h
  exact ⟨r, u, k, k', (Holds.part .whole hs).trans hholds, hfails⟩

lemma blames_procedure (he : e.isUnbalanced = true) {lines : List Text}
    (h : Logo.runBody (entering room) lines env m = .error (.misuse e) m') :
    Blames env (.procedure room lines) m e := by
  have hcharge : Finds [] charge := .charge
  induction lines generalizing m with
  | nil => cases h
  | cons line lines ih =>
    rcases error_of_bind h with hc | ⟨_, n, hc, h⟩
    · exact absurd (hcharge env m e m' hc he) List.not_mem_nil
    · cases hs : sameWord (trim line) "STOP".toList with
      | true =>
        rw [hs] at h
        cases h
      | false =>
        rw [hs] at h
        rcases error_of_bind h with h | ⟨d, k, hl, h⟩
        · -- the line fails, or a line after it
          cases room with
          | zero => cases h
          | succ room =>
            exact Blames.of_starts (.enter hc hs) ⟨room, line, n, m', .whole, h⟩
        · cases d with
          | next => exact (ih h).of_starts (.next hc hs hl)
          | _ => cases h

/-- A call fails for brackets only if an input does, or a line of the procedure. -/
lemma blames_call (he : e.isUnbalanced = true) (verb : Text) {q : Procedure}
    {inputs : List (Except Misuse Text)}
    (h : Logo.call (entering room) q inputs env m = .error (.misuse e) m') :
    e ∈ inputs.flatMap Logo.lacking ∨
      Blames env (.sentence room (.simple (.call verb q inputs))) m e := by
  rcases error_of_bind h with ha | ⟨args, n, ha, h⟩
  · exact .inl (Logo.finds_arguments inputs env m e m' ha he)
  · right
    change (if env.settings.maxCallDepth < n.callDepth + 1 then _ else _ : Exec Directive) env n = _
      at h
    by_cases hd : env.settings.maxCallDepth < n.callDepth + 1
    · rw [if_pos hd] at h
      cases h
    · rw [if_neg hd] at h
      cases hl : Logo.substituteAll (q.params.zip args) q.body with
      | error e' =>
        rw [hl] at h
        -- parameters are put in without a look at brackets
        obtain ⟨u, rfl⟩ := Logo.substituteAll_misuse hl
        cases h
        cases he
      | ok lines =>
        rw [hl] at h
        change deeper (Logo.runBody (entering room) lines) env n = _ at h
        rw [deeper_eq] at h
        cases hr : Logo.runBody (entering room) lines env
            { n with callDepth := n.callDepth + 1 } with
        | ok d k =>
          rw [hr] at h
          cases h
        | error e' k =>
          rw [hr] at h
          cases h
          exact (blames_procedure he hr).of_starts (.call ha (Nat.not_lt.1 hd) hl)

lemma blames_passes (he : e.isUnbalanced = true) {body : List Logo.Sentence} {es : List Misuse}
    (hbody : ∀ {n n'}, Logo.runAll (entering room) body true env n = .error (.misuse e) n' →
      e ∈ es ∨ Blames env (.block room body true) n e) {left i : Nat}
    (h : Logo.repeatFrom (Logo.pass (entering room) body) left i env m = .error (.misuse e) m') :
    e ∈ es ∨ Blames env (.passes room body left i) m e := by
  -- counting the pass cannot fail for brackets
  have hannounce : ∀ i, Finds [] (announce body i) := by
    intro i
    unfold announce
    split
    · exact .bind .charge fun _ => .setVariable _ _
    · exact .setVariable _ _
  induction left generalizing i m with
  | zero => cases h
  | succ left ih =>
    rcases error_of_bind h with h | ⟨d, n, hp, h⟩
    · rw [Logo.pass_eq] at h
      rcases error_of_bind h with h | ⟨_, n, ha, h⟩
      · exact absurd (hannounce i env m e m' h he) List.not_mem_nil
      · exact (hbody h).imp_right (Blames.of_starts (.pass ha))
    · cases d with
      | next => exact (ih h).imp_right (Blames.of_starts (.again hp))
      | _ => cases h

mutual

theorem blames_sentence (he : e.isUnbalanced = true) (s : Logo.Sentence) {m m' : Machine}
    (h : s.run (entering room) env m = .error (.misuse e) m') :
    e ∈ s.faults ∨ Blames env (.sentence room s) m e := by
  cases s with
  | simple s =>
    rw [Logo.Sentence.run] at h
    rw [Logo.Sentence.faults]
    cases s with
    | call verb q inputs => exact blames_call he verb h
    | _ => exact .inl (Logo.finds_simple (fun _ _ _ h => by cases h) _ env m e m' h he)
  | repeatBlock count body =>
    rw [Logo.run_repeatBlock] at h
    rw [Logo.Sentence.faults]
    rcases error_of_bind h with h | ⟨n, k, hc, h⟩
    · exact .inl (Logo.finds_repeatCount count env m e m' h he)
    · exact (blames_passes he (blames_block he body true) h).imp_right
        (Blames.of_starts (.repetition hc))
  | ifBlock condition body =>
    rw [Logo.Sentence.run] at h
    rw [Logo.Sentence.faults]
    rcases error_of_bind h with h | ⟨v, n, hc, h⟩
    · exact .inl (Logo.finds_resolve condition env m e m' h he)
    · by_cases hv : v.truthy = true
      · rw [if_pos hv] at h
        exact (blames_block he body true h).imp_right (Blames.of_starts (.conditional hc hv))
      · rw [if_neg hv] at h
        cases h
  | stray e' =>
    rw [Logo.Sentence.run] at h
    rw [Logo.Sentence.faults]
    cases h
    exact .inl (List.mem_singleton_self e)

theorem blames_block (he : e.isUnbalanced = true) (ss : List Logo.Sentence) (counted : Bool)
    {m m' : Machine} (h : Logo.runAll (entering room) ss counted env m = .error (.misuse e) m') :
    e ∈ Logo.faultsOf ss ∨ Blames env (.block room ss counted) m e := by
  cases ss with
  | nil =>
    rw [Logo.runAll] at h
    cases h
  | cons s rest =>
    rw [Logo.runAll_eq] at h
    rw [Logo.faultsOf, List.mem_append]
    have hcount : Finds [] (count s counted) := by
      unfold count
      split
      · exact .charge
      · exact .pure _
    rcases error_of_bind h with h | ⟨_, n, hc, h⟩
    · exact absurd (hcount env m e m' h he) List.not_mem_nil
    · rcases error_of_bind h with h | ⟨d, k, hs, h⟩
      · exact (blames_sentence he s h).imp .inl (Blames.of_starts (.first hc))
      · cases d with
        | next =>
          exact (blames_block he rest true h).imp .inr (Blames.of_starts (.rest hc hs))
        | _ => cases h

end

end Task

/-! ### Lines without quotes -/

namespace Logo

open Exec

variable {t b : Text} {ws : List Word} {e : Misuse}

/-- There are no quotes in a text. -/
def Unquoted (t : Text) : Prop := ∀ c ∈ t, isQuote c = false

lemma Cut.balanced_of_unquoted {current : Text} (h : Cut current t ws) (ht : Unquoted t) :
    Balanced t := by
  induction h with
  | done => exact .nil
  | blank hc _ ih =>
    obtain ⟨hopen, hclose⟩ := not_bracket_of_isBlank hc
    exact .plain hopen hclose (ih fun c hc => ht c (List.mem_cons_of_mem _ hc))
  | pause _ ih =>
    exact .plain (by decide) (by decide) (ih fun c hc => ht c (List.mem_cons_of_mem _ hc))
  | block hb _ ih => exact .block hb (ih fun c hc => ht c (by simp [hc]))
  | @quoted q u t _ hq _ _ =>
    have hnot := ht q (by simp [inQuotes])
    rw [hq] at hnot
    cases hnot
  | letter hopen hclose _ ih =>
    exact .plain hopen hclose (ih fun c hc => ht c (List.mem_cons_of_mem _ hc))

lemma exists_splitFrom_of_balanced (h : Balanced t) (ht : Unquoted t) (current : Text) :
    ∃ ws, splitFrom current t = .ok ws := by
  induction h generalizing current with
  | nil => exact ⟨_, by rw [splitFrom]⟩
  | @plain c t hopen hclose _ ih =>
    have hrest := ih fun d hd => ht d (List.mem_cons_of_mem _ hd)
    have hquote : isQuote c = false := ht c List.mem_cons_self
    obtain ⟨us, hus⟩ := hrest []
    -- a blank or a semicolon ends the word, any other letter goes on with it
    by_cases hblank : isBlank c = true
    · exact ⟨_, by rw [splitFrom, if_pos hblank, hus]; rfl⟩
    · by_cases hpause : c = ';'
      · exact ⟨_, by rw [splitFrom, if_neg hblank, if_pos hpause, hus]; rfl⟩
      · obtain ⟨us', hus'⟩ := hrest (c :: current)
        refine ⟨us', ?_⟩
        rw [splitFrom, if_neg hblank, if_neg hpause, if_neg hopen, if_neg hclose,
          if_neg (by simp [hquote]), hus']
  | @block s t hs _ _ ih =>
    obtain ⟨us, hus⟩ := ih (fun c hc => ht c (by simp [hc])) []
    exact ⟨_, by rw [splitFrom_block hs, hus]; rfl⟩

/-- **Without quotes a text is accepted just if its brackets are balanced.** -/
theorem exists_splitWords_iff (ht : Unquoted t) : (∃ ws, splitWords t = .ok ws) ↔ Balanced t := by
  constructor
  · rintro ⟨ws, h⟩
    exact (cut_of_splitFrom h).balanced_of_unquoted ht
  · intro h
    exact exists_splitFrom_of_balanced h ht []

/-- All blocks are balanced and without quotes. -/
def Sound (ws : List Word) : Prop := ∀ b, .block b ∈ ws → Balanced b ∧ Unquoted b

lemma sound_of_splitWords (ht : Unquoted t) (h : splitWords t = .ok ws) : Sound ws := by
  intro b hb
  obtain ⟨hbalanced, hin⟩ := (cut_of_splitFrom h).balanced hb
  exact ⟨hbalanced, fun c hc => ht c (hin.subset hc)⟩

lemma Sound.of_suffix {us : List Word} (h : Sound ws) (hsuffix : us <:+ ws) : Sound us :=
  fun b hb => h b (hsuffix.mem hb)

/-! ### Reading such lines -/

lemma takeArg_error {verb : Text} {r : List Word} (h : takeArg verb ws = (.error e, r)) :
    e.isUnbalanced = false := by
  unfold takeArg at h
  split at h
  · cases h
  · cases h
  · cases h
    rfl

lemma lacking_takeExpr (verb : Text) (ws : List Word) (he : e ∈ lacking (takeExpr verb ws).1) :
    e.isUnbalanced = false := by
  unfold takeExpr at he
  split at he
  · cases he
  · cases List.mem_singleton.1 he
    rfl
  · next m r h =>
    obtain rfl := List.mem_singleton.1 he
    exact takeArg_error h

lemma lacking_takeExprs (verb : Text) (n : Nat) (ws : List Word)
    (he : e ∈ (takeExprs verb n ws).1.flatMap lacking) : e.isUnbalanced = false := by
  induction n generalizing ws with
  | zero => cases he
  | succ n ih =>
    rw [takeExprs] at he
    rcases List.mem_append.1 he with he | he
    · exact lacking_takeExpr verb ws he
    · exact ih _ he

/-- No failure for brackets is noted in a command; its block is not read yet. -/
def Phrase.Clean : Phrase → Prop
  | simple s => ∀ e ∈ s.faults, e.isUnbalanced = false
  | _ => True

lemma clean_faulty (h : e.isUnbalanced = false) : (Phrase.simple (.faulty e)).Clean := by
  intro e' he
  obtain rfl := List.mem_singleton.1 he
  exact h

lemma clean_position (verb : Text) (h : Sound ws) :
    (Phrase.simple (readPosition verb ws).1).Clean := by
  unfold readPosition
  split
  · next b r =>
    -- the block is read at once, and can be read
    obtain ⟨hbalanced, hb⟩ := h b List.mem_cons_self
    obtain ⟨us, hus⟩ := (exists_splitWords_iff hb).2 hbalanced
    rw [hus]
    exact fun e he => lacking_takeExprs verb 2 us he
  · exact fun e he => lacking_takeExprs verb 2 _ he

lemma clean_color (verb : Text) (ws : List Word) :
    (Phrase.simple (readColor verb ws).1).Clean := by
  have hlack := fun e => lacking_takeExpr (e := e) verb ws
  unfold readColor
  split
  · exact fun e he => by cases he
  · next m r h =>
    rw [h] at hlack
    exact clean_faulty (hlack m (List.mem_singleton_self m))

lemma clean_print (verb : Text) (ws : List Word) :
    (Phrase.simple (readPrint verb ws).1).Clean := by
  unfold readPrint
  split
  · exact fun e he => by cases he
  · next m r h => exact clean_faulty (takeArg_error h)

lemma clean_make (verb : Text) (ws : List Word) :
    (Phrase.simple (readMake verb ws).1).Clean := by
  unfold readMake
  split
  · dsimp only
    split
    · exact clean_faulty rfl
    · split
      · exact fun e he => by cases he
      · next m r h => exact clean_faulty (takeArg_error h)
  · exact clean_faulty rfl

lemma clean_repeat (verb : Text) (ws : List Word) : (readRepeat verb ws).1.Clean := by
  unfold readRepeat
  split
  · split
    · exact trivial
    · exact clean_faulty rfl
  · exact clean_faulty rfl

lemma clean_if (verb : Text) (ws : List Word) : (readIf verb ws).1.Clean := by
  have hlack := fun e => lacking_takeExpr (e := e) verb ws
  unfold readIf
  split
  · exact trivial
  · exact clean_faulty rfl
  · next m r h =>
    rw [h] at hlack
    exact clean_faulty (hlack m (List.mem_singleton_self m))

lemma clean_call (p : Program) (verb : Text) (ws : List Word) :
    (Phrase.simple (readCall p verb ws).1).Clean := by
  unfold readCall
  split
  · exact fun e he => by cases he
  · exact fun e he => lacking_takeExprs verb _ ws he

lemma clean_readPhrase (p : Program) (verb : Text) (h : Sound ws) :
    (readPhrase p verb ws).1.Clean := by
  unfold readPhrase
  dsimp only
  split
  · exact fun e he => lacking_takeExprs verb _ ws he
  · exact clean_position verb h
  · exact fun e he => by cases he
  · exact clean_color verb ws
  · exact clean_print verb ws
  · exact clean_make verb ws
  · exact clean_repeat verb ws
  · exact clean_if verb ws
  · exact fun e he => by cases he
  · exact fun e he => by cases he
  · exact clean_call p verb ws

/-- What a command leaves of such a line is such a line, and its block can be read. -/
lemma Sound.of_readPhrase {p : Program} {verb : Text} {x : Phrase} {rest : List Word}
    (h : Sound (.atom verb :: ws)) (hread : readPhrase p verb ws = (x, rest)) :
    x.Clean ∧ Sound rest ∧ ∀ b ∈ x.blocks, ∃ us, splitWords b = .ok us ∧ Sound us := by
  have hws : Sound ws := h.of_suffix (List.suffix_cons _ _)
  have hclean := clean_readPhrase p verb hws
  have hleaves := readPhrase_leaves p verb ws
  rw [hread] at hclean hleaves
  refine ⟨hclean, hws.of_suffix hleaves.1, fun b hb => ?_⟩
  obtain ⟨hbalanced, hunquoted⟩ := hws b (hleaves.2 b hb)
  obtain ⟨us, hus⟩ := (exists_splitWords_iff hunquoted).2 hbalanced
  exact ⟨us, hus, sound_of_splitWords hunquoted hus⟩

/-- **No failure for brackets is noted in the commands of such a line**, at any depth. -/
theorem not_unbalanced_of_mem_faults (p : Program) (h : Sound ws)
    (he : e ∈ faultsOf (sentences p ws)) : e.isUnbalanced = false := by
  fun_induction sentences p ws with
  | case1 => cases he
  | case2 r ih => exact ih (h.of_suffix (List.suffix_cons _ _)) he
  | case3 b r ih =>
    rcases List.mem_append.1 he with he | he
    · obtain rfl := List.mem_singleton.1 he
      rfl
    · exact ih (h.of_suffix (List.suffix_cons _ _)) he
  | case4 verb r s rest hread ih =>
    obtain ⟨hclean, hrest, -⟩ := h.of_readPhrase hread
    rcases List.mem_append.1 he with he | he
    · exact hclean e he
    · exact ih hrest he
  | case5 verb r count b rest hread ihb ih =>
    obtain ⟨-, hrest, hblocks⟩ := h.of_readPhrase hread
    -- the block of a loop is such a line again
    obtain ⟨us, hus, hsound⟩ := hblocks b List.mem_cons_self
    rcases List.mem_append.1 he with he | he
    · split at he
      · next heq => cases heq.symm.trans hus
      · next us' heq =>
        cases heq.symm.trans hus
        exact ihb us hus hsound he
    · exact ih hrest he
  | case6 verb r condition b rest hread ihb ih =>
    obtain ⟨-, hrest, hblocks⟩ := h.of_readPhrase hread
    obtain ⟨us, hus, hsound⟩ := hblocks b List.mem_cons_self
    rcases List.mem_append.1 he with he | he
    · rw [Sentence.faults] at he
      split at he
      · next heq => cases heq.symm.trans hus
      · next us' heq =>
        cases heq.symm.trans hus
        exact ihb us hus hsound he
    · exact ih hrest he

/-! ### Running such lines -/

/-- The text `t` is cut into words of which one is the block `b`. -/
def HasBlock (t b : Text) : Prop := ∃ ws, splitWords t = .ok ws ∧ .block b ∈ ws

lemma balanced_of_nested (ht : Unquoted t) (hbalanced : Balanced t)
    (h : Relation.ReflTransGen HasBlock t b) : Balanced b ∧ Unquoted b := by
  induction h with
  | refl => exact ⟨hbalanced, ht⟩
  | tail _ hlast ih =>
    obtain ⟨ws, hws, hb⟩ := hlast
    exact sound_of_splitWords ih.2 hws _ hb

/-- A text that is not accepted fails for its brackets. -/
lemma unbalanced_of_splitFrom {current : Text} (h : splitFrom current t = .error e) :
    e.isUnbalanced = true := by
  fun_induction splitFrom current t with
  | case1 => cases h
  | case2 current c r _ ih => exact ih (eq_error_of_map h)
  | case3 current r _ ih => exact ih (eq_error_of_map h)
  | case4 =>
    cases h
    rfl
  | case5 current r inner rest _ _ _ ih => exact ih (eq_error_of_map h)
  | case6 =>
    cases h
    rfl
  | case7 current c r _ _ _ _ _ w rest _ ih => exact ih (eq_error_of_map h)
  | case8 current c r _ _ _ _ _ _ ih => exact ih h
  | case9 current c r _ _ _ _ _ ih => exact ih h

/-- A line that is not accepted fails before anything is run. -/
lemma runAll_of_not_accepted {p : Program} (h : splitWords t = .error e)
    (enter : Text → Exec Directive) (counted : Bool) (env : Environment) (m : Machine) :
    runAll enter (Command.readBlock p t) counted env m = .error (.misuse e) m := by
  rw [Command.readBlock, h, runAll, Sentence.isCounted, Bool.and_false]
  rfl

/-- **Brackets that do not match are found before anything is run.** A text without quotes is
accepted just if its brackets are balanced. Then every block in it is balanced and accepted as
well, at any depth, and where running it fails for brackets, that is the failure of a line of a
procedure that it calls. If its brackets are not balanced, running it fails for them at once and
leaves the machine as it was. -/
theorem brackets_fail_first {t : Text} (ht : ∀ c ∈ t, isQuote c = false) :
    ((∃ ws, splitWords t = .ok ws) ↔ Balanced t) ∧
      (Balanced t →
        (∀ b, Relation.ReflTransGen HasBlock t b → Balanced b ∧ ∃ ws, splitWords b = .ok ws) ∧
        ∀ (room : Nat) (counted : Bool) (env : Environment) (m m' : Machine) (e : Misuse),
          e.isUnbalanced = true →
          runAll (entering room) (Command.readBlock env.program t) counted env m =
            .error (.misuse e) m' →
          ∃ r u n n', Task.Holds env (.block room (Command.readBlock env.program t) counted) m
            (.line r u) n ∧ execute r u env n = .error (.misuse e) n') ∧
      (¬ Balanced t → ∃ e : Misuse, e.isUnbalanced = true ∧
        ∀ (p : Program) (enter : Text → Exec Directive) (counted : Bool) (env : Environment)
          (m : Machine),
          runAll enter (Command.readBlock p t) counted env m = .error (.misuse e) m) := by
  have hiff := exists_splitWords_iff ht
  refine ⟨hiff, fun hbalanced => ⟨fun b hb => ?_, ?_⟩, fun hnot => ?_⟩
  · obtain ⟨hb, hunquoted⟩ := balanced_of_nested ht hbalanced hb
    exact ⟨hb, (exists_splitWords_iff hunquoted).2 hb⟩
  · intro room counted env m m' e he hrun
    obtain ⟨ws, hws⟩ := hiff.2 hbalanced
    -- the line itself has no such fault, so a line that it calls is to blame
    rcases Task.blames_block he _ counted hrun with hfault | hblames
    · rw [Command.readBlock, hws] at hfault
      have hclear := not_unbalanced_of_mem_faults env.program (sound_of_splitWords ht hws) hfault
      rw [he] at hclear
      cases hclear
    · exact hblames
  · cases hwords : splitWords t with
    | ok ws => exact absurd (hiff.1 ⟨ws, hwords⟩) hnot
    | error e =>
      exact ⟨e, unbalanced_of_splitFrom hwords, fun p => runAll_of_not_accepted hwords⟩

/-- A block in a block, and a line that closes one bracket too many behind its first command. -/
theorem brackets_fail_first_nested :
    (∃ ws, splitWords "REPEAT 2 [FD 1 [RT 2]]".toList = .ok ws) ∧
      Relation.ReflTransGen HasBlock "REPEAT 2 [FD 1 [RT 2]]".toList "RT 2".toList ∧
      Balanced "RT 2".toList ∧
      ∃ e : Misuse, e.isUnbalanced = true ∧ ∀ (p : Program) (m : Machine),
        runAll (entering 1) (Command.readBlock p "FD 10 [RT 90]]".toList) false ⟨p, {}, 0⟩ m =
          .error (.misuse e) m := by
  have houter : splitWords "REPEAT 2 [FD 1 [RT 2]]".toList =
      .ok [.atom "REPEAT".toList, .atom "2".toList, .block "FD 1 [RT 2]".toList] := by cbv
  have hinner : splitWords "FD 1 [RT 2]".toList =
      .ok [.atom "FD".toList, .atom "1".toList, .block "RT 2".toList] := by cbv
  have hnested : Relation.ReflTransGen HasBlock "REPEAT 2 [FD 1 [RT 2]]".toList "RT 2".toList :=
    .tail (.single ⟨_, houter, by simp⟩) ⟨_, hinner, by simp⟩
  obtain ⟨hiff, hblocks, -⟩ := brackets_fail_first (t := "REPEAT 2 [FD 1 [RT 2]]".toList)
    (by simp [isQuote])
  obtain ⟨-, -, hnot⟩ := brackets_fail_first (t := "FD 10 [RT 90]]".toList) (by simp [isQuote])
  obtain ⟨e, he, hfails⟩ := hnot (by decide)
  have hbalanced : Balanced "REPEAT 2 [FD 1 [RT 2]]".toList := by decide
  exact ⟨hiff.2 hbalanced, hnested, ((hblocks hbalanced).1 _ hnested).1, e, he,
    fun p m => hfails p (entering 1) false ⟨p, {}, 0⟩ m⟩

end Logo

end Courseware
