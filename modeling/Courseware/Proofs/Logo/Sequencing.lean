import Courseware.Command.Basic
import Courseware.Logo.Execution
import Courseware.Proofs.Machine.Composition

/-!
The semicolon between commands of Logo.

However a verb takes its inputs, a semicolon is to it what the end of the line is: it takes the
same inputs, or misses the same one, and leaves the words from the semicolon on. So the commands
on both sides of a semicolon are read apart from each other, and running them all is running those
before it and then, if they lead there, those behind it.
-/

namespace Courseware.Logo

open Text Exec

section Reading

variable (us : List Word)

/-! ### Inputs end at a semicolon -/

lemma takeExpression_pause (expr : Text) (ws : List Word) :
    takeExpression expr (ws ++ .pause :: us) =
      ((takeExpression expr ws).1, (takeExpression expr ws).2 ++ .pause :: us) := by
  induction ws generalizing expr with
  | nil => rfl
  | cons w ws ih =>
    cases w with
    | atom a =>
      rw [List.cons_append, takeExpression, takeExpression]
      split
      · exact ih _
      · rfl
    | block b => rfl
    | pause => rfl

lemma takeArg_pause (verb : Text) (ws : List Word) :
    takeArg verb (ws ++ .pause :: us) =
      ((takeArg verb ws).1, (takeArg verb ws).2 ++ .pause :: us) := by
  cases ws with
  | nil => rfl
  | cons w ws =>
    cases w with
    | atom a =>
      rw [List.cons_append, takeArg, takeArg, ← List.cons_append, takeExpression_pause]
    | block b => rfl
    | pause => rfl

lemma takeExpr_pause (verb : Text) (ws : List Word) :
    takeExpr verb (ws ++ .pause :: us) =
      ((takeExpr verb ws).1, (takeExpr verb ws).2 ++ .pause :: us) := by
  unfold takeExpr
  rw [takeArg_pause]
  rcases takeArg verb ws with ⟨(m | (e | b)), r⟩ <;> rfl

lemma takeExprs_pause (verb : Text) (n : Nat) (ws : List Word) :
    takeExprs verb n (ws ++ .pause :: us) =
      ((takeExprs verb n ws).1, (takeExprs verb n ws).2 ++ .pause :: us) := by
  induction n generalizing ws with
  | zero => rfl
  | succ n ih =>
    rw [takeExprs, takeExprs, takeExpr_pause]
    dsimp only
    rw [ih]

/-! ### Commands end at a semicolon -/

lemma readPosition_pause (verb : Text) (ws : List Word) :
    readPosition verb (ws ++ .pause :: us) =
      ((readPosition verb ws).1, (readPosition verb ws).2 ++ .pause :: us) := by
  have hinputs : ∀ ws : List Word, (∀ b r, ws ≠ .block b :: r) →
      readPosition verb ws = (.motion verb .setPosition (takeExprs verb 2 ws).1,
        (takeExprs verb 2 ws).2) := by
    intro ws hws
    unfold readPosition
    split
    · next b r => exact absurd rfl (hws b r)
    · rfl
  cases ws with
  | nil => rfl
  | cons w ws =>
    cases w with
    | block b =>
      rw [List.cons_append, readPosition, readPosition]
      cases splitWords b <;> rfl
    | _ =>
      rw [hinputs _ (by simp), hinputs _ (by simp), takeExprs_pause]

lemma readColor_pause (verb : Text) (ws : List Word) :
    readColor verb (ws ++ .pause :: us) =
      ((readColor verb ws).1, (readColor verb ws).2 ++ .pause :: us) := by
  unfold readColor
  rw [takeExpr_pause]
  rcases takeExpr verb ws with ⟨m | e, r⟩ <;> rfl

lemma readPrint_pause (verb : Text) (ws : List Word) :
    readPrint verb (ws ++ .pause :: us) =
      ((readPrint verb ws).1, (readPrint verb ws).2 ++ .pause :: us) := by
  unfold readPrint
  rw [takeArg_pause]
  rcases takeArg verb ws with ⟨m | a, r⟩ <;> rfl

lemma readMake_pause (verb : Text) (ws : List Word) :
    readMake verb (ws ++ .pause :: us) =
      ((readMake verb ws).1, (readMake verb ws).2 ++ .pause :: us) := by
  cases ws with
  | nil => rfl
  | cons w ws =>
    cases w with
    | atom a =>
      rw [List.cons_append, readMake, readMake]
      split
      · rfl
      · rw [takeArg_pause]
        rcases takeArg verb ws with ⟨m | a, r⟩ <;> rfl
    | block b => rfl
    | pause => rfl

lemma readRepeat_pause (verb : Text) (ws : List Word) :
    readRepeat verb (ws ++ .pause :: us) =
      ((readRepeat verb ws).1, (readRepeat verb ws).2 ++ .pause :: us) := by
  cases ws with
  | nil => rfl
  | cons w ws =>
    cases w with
    | atom a =>
      rw [List.cons_append, readRepeat, readRepeat, ← List.cons_append, takeExpression_pause]
      rcases takeExpression [] (.atom a :: ws) with ⟨count, (_ | ⟨(a | b | _), r⟩)⟩ <;> rfl
    | block b => rfl
    | pause => rfl

lemma readIf_pause (verb : Text) (ws : List Word) :
    readIf verb (ws ++ .pause :: us) =
      ((readIf verb ws).1, (readIf verb ws).2 ++ .pause :: us) := by
  unfold readIf
  rw [takeExpr_pause]
  rcases takeExpr verb ws with ⟨m | e, (_ | ⟨(a | b | _), r⟩)⟩ <;> rfl

lemma readCall_pause (p : Program) (verb : Text) (ws : List Word) :
    readCall p verb (ws ++ .pause :: us) =
      ((readCall p verb ws).1, (readCall p verb ws).2 ++ .pause :: us) := by
  unfold readCall
  split
  · rfl
  · rw [takeExprs_pause]

lemma definedName_pause (ws : List Word) : definedName (ws ++ .pause :: us) = definedName ws := by
  rcases ws with _ | ⟨(a | b | _), ws⟩ <;> rfl

/-- **A verb reads up to a semicolon as it reads up to the end.** -/
theorem readPhrase_pause (p : Program) (verb : Text) (ws : List Word) :
    readPhrase p verb (ws ++ .pause :: us) =
      ((readPhrase p verb ws).1, (readPhrase p verb ws).2 ++ .pause :: us) := by
  unfold readPhrase
  dsimp only
  split
  · rw [takeExprs_pause]
  · rw [readPosition_pause]
  · rfl
  · rw [readColor_pause]
  · rw [readPrint_pause]
  · rw [readMake_pause]
  · exact readRepeat_pause us verb ws
  · exact readIf_pause us verb ws
  · rfl
  · rw [definedName_pause]
  · rw [readCall_pause]

/-! ### Lines -/

/-- A command with what its block holds. -/
def Phrase.sentence (p : Program) : Phrase → Sentence
  | simple s => .simple s
  | repeatBlock count b =>
    match splitWords b with
    | .error m => .simple (.faulty m)
    | .ok ws => .repeatBlock count (sentences p ws)
  | ifBlock condition b => .ifBlock condition (Command.readBlock p b)

/-- A line that begins with a verb is a command and the line behind it. -/
lemma sentences_atom (p : Program) (verb : Text) (ws : List Word) :
    sentences p (.atom verb :: ws) =
      (readPhrase p verb ws).1.sentence p :: sentences p (readPhrase p verb ws).2 := by
  rw [sentences]
  split
  · next heq => rw [heq, Phrase.sentence]
  · next b _ heq =>
    rw [heq, Phrase.sentence]
    cases splitWords b <;> rfl
  · next b _ heq =>
    rw [heq, Phrase.sentence, Command.readBlock]
    cases splitWords b <;> rfl

/-- **The commands on the two sides of a semicolon are read apart.** -/
theorem sentences_pause (p : Program) (ws : List Word) :
    sentences p (ws ++ .pause :: us) = sentences p ws ++ sentences p us := by
  -- a command leaves a suffix of the words behind its verb
  induction hn : ws.length using Nat.strongRecOn generalizing ws with
  | ind n ih =>
    subst hn
    cases ws with
    | nil => rw [List.nil_append, sentences, sentences, List.nil_append]
    | cons w ws =>
      have hws := ih ws.length (Nat.lt_succ_self _) ws rfl
      cases w with
      | atom verb =>
        have hle := (readPhrase_leaves p verb ws).1.length_le
        rw [List.cons_append, sentences_atom, sentences_atom, readPhrase_pause,
          ih _ (Nat.lt_succ_of_le hle) _ rfl, List.cons_append]
      | block b => rw [List.cons_append, sentences, sentences, hws, List.cons_append]
      | pause => rw [List.cons_append, sentences, sentences, hws]

end Reading

/-- Semicolons alone are no commands. -/
lemma isEmpty_sentences (p : Program) (ws : List Word) :
    (sentences p ws).isEmpty = !ws.any (· ≠ .pause) := by
  induction ws with
  | nil => rw [sentences]; rfl
  | cons w ws ih =>
    cases w with
    | atom verb => rw [sentences_atom]; rfl
    | block b => rw [sentences]; rfl
    | pause => rw [sentences, ih]; rfl

variable (enter : Text → Exec Directive) (counted : Bool) (env : Environment) (m : Machine)

/-- What is done where a command leads to what follows. -/
lemma bind_next (x k : Exec Directive) :
    (do match ← x with
      | .next => k
      | d => return d : Exec Directive) env m =
      match x env m with
      | .ok .next m' => k env m'
      | r => r := by
  cases hx : x env m with
  | error e n => rw [bind_of_error hx]
  | ok d n =>
    rw [bind_of_ok hx]
    cases d <;> rfl

/-- Commands go on behind the first of them if it leads there. -/
lemma runAll_cons (s : Sentence) (ss : List Sentence) :
    runAll enter (s :: ss) counted env m =
      match (do
        if counted && s.isCounted then charge
        s.run enter : Exec Directive) env m with
      | .ok .next m' => runAll enter ss true env m'
      | r => r := by
  rw [runAll]
  split
  · cases hc : charge env m with
    | error e n => rw [bind_of_error hc, bind_of_error hc]
    | ok u n =>
      rw [bind_of_ok hc, bind_of_ok hc]
      exact bind_next env n _ _
  · exact bind_next env m _ _

/-- Commands that come after others run if these lead there, and are counted. -/
lemma runAll_append (ss ts : List Sentence) :
    runAll enter (ss ++ ts) counted env m =
      match runAll enter ss counted env m with
      | .ok .next m' => runAll enter ts (counted || !ss.isEmpty) env m'
      | r => r := by
  induction ss generalizing counted m with
  | nil =>
    rw [List.nil_append, runAll, List.isEmpty_nil, Bool.not_true, Bool.or_false]
    rfl
  | cons s ss ih =>
    rw [List.cons_append, runAll_cons, runAll_cons enter counted env m s ss]
    generalize (do
        if counted && s.isCounted then charge
        s.run enter : Exec Directive) env m = r
    cases r with
    | error e n => rfl
    | ok d n =>
      cases d with
      | next => rw [List.isEmpty_cons, Bool.not_false, Bool.or_true]; exact ih true n
      | _ => rfl

/-- **A semicolon parts what is run.** The commands before it run as they do on their own. If they
lead to what follows, the commands behind it run from there, where the first is counted unless
there was nothing before it and the first of the line is not. If they lead elsewhere or fail,
nothing of what is behind the semicolon is run. -/
theorem runAll_across_semicolon (p : Program) (ws us : List Word) :
    runAll enter (sentences p (ws ++ .pause :: us)) counted env m =
      match runAll enter (sentences p ws) counted env m with
      | .ok .next m' =>
        runAll enter (sentences p us) (if ∃ w ∈ ws, w ≠ .pause then true else counted) env m'
      | r => r := by
  have hcounted : (counted || !(sentences p ws).isEmpty) =
      if ∃ w ∈ ws, w ≠ .pause then true else counted := by
    rw [isEmpty_sentences, Bool.not_not]
    split
    · next h =>
      have hany : ws.any (· ≠ .pause) = true := by simpa using h
      rw [hany, Bool.or_true]
    · next h =>
      have hany : ws.any (· ≠ .pause) = false := by simpa using h
      rw [hany, Bool.or_false]
  rw [sentences_pause, runAll_append, hcounted]

end Courseware.Logo
