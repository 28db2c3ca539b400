import Courseware.Program.Loading
import Courseware.Proofs.Basic.Keywords
import Courseware.Proofs.Command.Nesting
import Courseware.Proofs.Command.Reading

/-!
The branches of `IF`.

A statement is cut at the first `THEN`, and what follows that at the first `ELSE`. So if the
condition has no `THEN` in it and the first branch no `ELSE`, and their quotes are closed, then the
parts are the ones that were written.
-/

namespace Courseware

open Text

namespace Basic

variable {k t : Text}

/-! ### The statement -/

/-- The keywords of the statement, in small letters or capitals. -/
structure IfWords where
  ifWord : Text
  thenWord : Text
  elseWord : Text
  if_eq : upper ifWord = "IF".toList
  then_eq : upper thenWord = "THEN".toList
  else_eq : upper elseWord = "ELSE".toList

/-- What follows the first keyword in `IF test THEN yes ELSE no`. -/
def IfWords.rest (ws : IfWords) (test yes no : Text) : Text :=
  ' ' :: (test ++ ' ' :: (ws.thenWord ++ ' ' :: (yes ++ ' ' :: (ws.elseWord ++ ' ' :: no))))

/-- The statement `IF test THEN yes ELSE no`. -/
def IfWords.statement (ws : IfWords) (test yes no : Text) : Text :=
  ws.ifWord ++ ws.rest test yes no

/-- The text is not blank, and without white space at its ends it is no line number either. -/
structure IsCommand (t : Text) : Prop where
  not_blank : isBlankText t = false
  not_number : (trim t).all Number.isDigit = false

/-- The parts of a statement whose branches are commands, when the quotes before each keyword are
closed and the keyword does not occur earlier. -/
structure Separable (test yes no : Text) : Prop where
  test_closed : Even (test.count '"')
  yes_closed : Even (yes.count '"')
  test_plain : ¬ HasWord "THEN".toList test
  yes_plain : ¬ HasWord "ELSE".toList yes
  yes_command : IsCommand yes
  no_command : IsCommand no

variable {test yes no : Text} {room : Nat} {env : Environment} {m : Machine}

lemma trim_rest (ws : IfWords) (hno : isBlankText no = false) (test yes : Text) :
    trim (ws.rest test yes no) = trimStart (ws.rest test yes (trimEnd no)) := by
  have hend : trimEnd (ws.rest test yes no) = ws.rest test yes (trimEnd no) := by
    simpa [IfWords.rest] using trimEnd_append hno
      (' ' :: (test ++ ' ' :: (ws.thenWord ++ ' ' :: (yes ++ ' ' :: (ws.elseWord ++ [' '])))))
  rw [trim, ← trimStart_trimEnd_comm, hend]

/-- The statement is cut into the parts that it was written from. -/
lemma cutIf?_rest (ws : IfWords) (h : Separable test yes no) :
    Command.cutIf? (trim (ws.rest test yes no)) =
      some (trimStart (' ' :: (test ++ [' '])), trim yes, trim no) := by
  -- first at `THEN`, then what is left at `ELSE`
  have hthen : atKeyword? "THEN".toList (trim (ws.rest test yes no)) =
      some (trimStart (' ' :: (test ++ [' '])),
        ' ' :: (yes ++ ' ' :: (ws.elseWord ++ ' ' :: trimEnd no))) := by
    have hword : sameWord ws.thenWord "THEN".toList = true := beq_iff_eq.2 ws.then_eq
    rw [trim_rest ws h.no_command.not_blank, atKeyword?_trimStart (by decide), IfWords.rest,
      atKeyword?_append (by decide) h.test_plain h.test_closed hword]
    rfl
  have helse :
      atKeyword? "ELSE".toList (' ' :: (yes ++ ' ' :: (ws.elseWord ++ ' ' :: trimEnd no))) =
        some (' ' :: (yes ++ [' ']), ' ' :: trimEnd no) :=
    atKeyword?_append (by decide) h.yes_plain h.yes_closed (beq_iff_eq.2 ws.else_eq) _
  have htrim : ∀ t : Text, trim (' ' :: t) = trim t := trim_blank_append (b := [' ']) rfl
  unfold Command.cutIf?
  rw [hthen]
  dsimp only
  rw [helse]
  dsimp only
  rw [htrim, htrim, trim_append_blank (by decide), trim_trimEnd]

end Basic

/-- A statement with branches. -/
lemma Command.read_ifThen (p : Program) {w t test yes no : Text}
    (hw : Basic.Keyword.ofName? (upper w) = some .ifThen) (ht : EndsName t)
    (hcut : cutIf? (trim t) = some (test, yes, no)) :
    read p (w ++ t) =
      .ifThen test
        (if yes = [] then .skip else if yes.all Number.isDigit then .jumpTo yes
          else .nested (read p yes))
        (if no = [] then .skip else if no.all Number.isDigit then .jumpTo no
          else .nested (read p no)) := by
  have hne : w ≠ [] := List.ne_nil_of_length_pos (by have := Basic.Keyword.two_le_length hw; omega)
  have hblank : ∀ c ∈ w, isBlank c = false := fun c hc =>
    (of_isNameStart (Basic.Keyword.isNameStart_of_mem hw hc)).1
  have hsplit := splitBasic_append hw ht.trimEnd
  rw [trim_trimEnd] at hsplit
  rw [read, trim_append_of_not_blank hne hblank, Basic.Keyword.classify_append hw ht.trimEnd]
  dsimp only
  split
  · next rest heq =>
    rw [hsplit] at heq
    cases heq
    split
    · next test' yes' no' hcut' =>
      rw [hcut] at hcut'
      cases hcut'
      rfl
    · next hnone =>
      rw [hcut] at hnone
      cases hnone
  · next k rest hk heq =>
    rw [hsplit] at heq
    cases heq
    exact absurd rfl hk
  · next heq =>
    rw [hsplit] at heq
    cases heq

/-- Executes a command inside another, which is counted on its own. -/
def executeNested (room : Nat) (t : Text) : Exec Directive := do
  Exec.charge
  execute room t

namespace Basic

lemma run_nested (room : Nat) (t : Text) (env : Environment) (m : Machine) :
    (Command.nested (Command.read env.program (trim t))).run (entering room) env m =
      executeNested room t env m := by
  rw [Command.read_trim]
  cases h : Exec.charge env m with
  | ok u m' =>
    have hnested : executeNested room t env m = execute room t env m' := Exec.bind_of_ok h
    rw [hnested, execute_eq_entering]
    exact Exec.bind_of_ok h
  | error e m' =>
    have hnested : executeNested room t env m = .error e m' := Exec.bind_of_error h
    rw [hnested]
    exact Exec.bind_of_error h

lemma IsCommand.branch_eq {t : Text} (h : IsCommand t) (p : Program) :
    (if trim t = [] then Command.skip else if (trim t).all Number.isDigit then .jumpTo (trim t)
      else .nested (Command.read p (trim t))) = .nested (Command.read p (trim t)) := by
  have hne : trim t ≠ [] := by
    intro hnil
    have hnumber := h.not_number
    rw [hnil] at hnumber
    cases hnumber
  rw [if_neg hne, if_neg (by simp [h.not_number])]

lemma read_statement (ws : IfWords) (h : Separable test yes no) (p : Program) :
    Command.read p (ws.statement test yes no) =
      .ifThen (trimStart (' ' :: (test ++ [' '])))
        (.nested (Command.read p (trim yes))) (.nested (Command.read p (trim no))) := by
  have hkeyword : Keyword.ofName? (upper ws.ifWord) = some .ifThen := by
    rw [ws.if_eq]
    rfl
  have hends : EndsName (ws.rest test yes no) := endsName_blank (by decide) _
  rw [IfWords.statement, Command.read_ifThen p hkeyword hends (cutIf?_rest ws h),
    h.yes_command.branch_eq, h.no_command.branch_eq]

/-- **`IF test THEN yes ELSE no` evaluates the condition once.** If that fails, the statement fails
in the same way and nothing else happens. Otherwise one branch is executed as a command of its own:
the first if the value is true, and the second if it is not. -/
theorem if_splits_at_keywords (ws : IfWords) (h : Separable test yes no) (room : Nat)
    (env : Environment) (m : Machine) :
    execute room (ws.statement test yes no) env m =
      match Expr.evaluate m.vars env.settings.limits test m.random with
      | .error e g => .error (.eval e false) { m with random := g }
      | .ok v g =>
        executeNested room (if v.truthy then yes else no) env { m with random := g } := by
  have hbranch : ∀ b m', (if b = true then
      (Command.nested (Command.read env.program (trim yes))).run (entering room)
      else (Command.nested (Command.read env.program (trim no))).run (entering room)) env m' =
        executeNested room (if b = true then yes else no) env m' := by
    intro b m'
    cases b
    · exact run_nested room no env m'
    · exact run_nested room yes env m'
  -- the white space that is left around the condition does not matter
  have htest : Exec.evaluate (trimStart (' ' :: (test ++ [' ']))) env m =
      Exec.evaluate test env m := by rw [Exec.evaluate_congr (trim_padded test)]
  rw [execute_eq_entering, read_statement ws h]
  cases hv : Expr.evaluate m.vars env.settings.limits test m.random with
  | error e g =>
    have hevaluate : Exec.evaluate test env m = .error (.eval e false) { m with random := g } := by
      rw [Exec.evaluate, hv]
    exact Exec.bind_of_error (Exec.bind_of_error (htest.trans hevaluate))
  | ok v g =>
    have hevaluate : Exec.evaluate test env m = .ok v { m with random := g } := by
      rw [Exec.evaluate, hv]
    have hcondition : Exec.condition (trimStart (' ' :: (test ++ [' ']))) env m =
        .ok v.truthy { m with random := g } := Exec.bind_of_ok (htest.trans hevaluate)
    exact (Exec.bind_of_ok hcondition).trans (hbranch v.truthy _)

lemma not_hasWord (hk : isName k = true) (h : atKeyword? k t = none) : ¬ HasWord k t :=
  (atKeyword?_eq_none_iff hk).1 h

/-- Keywords in quotes, and one that the second branch ends with. -/
theorem if_splits_at_keywords_quoted :
    ∃ (ws : IfWords) (test yes no : Text),
      ws.statement test yes no =
        "if \"THEN\" = \"X\" Then PRINT \"a ELSE b\" else STOP ELSE".toList ∧
      Separable test yes no ∧
      execute 0 (ws.statement test yes no) ⟨{}, {}, 0⟩ default =
        .ok .halt { (default : Machine) with used := 1 } := by
  obtain ⟨ws, hws⟩ : ∃ ws : IfWords, ws =
      ⟨"if".toList, "Then".toList, "else".toList, by decide, by decide, by decide⟩ := ⟨_, rfl⟩
  have hparts : Separable "\"THEN\" = \"X\"".toList "PRINT \"a ELSE b\"".toList
      "STOP ELSE".toList :=
    { test_closed := by decide
      yes_closed := by decide
      test_plain := not_hasWord (by decide) (by decide)
      yes_plain := not_hasWord (by decide) (by decide)
      yes_command := ⟨by decide, by decide⟩
      no_command := ⟨by decide, by decide⟩ }
  have hvalue : Expr.evaluate (default : Machine).vars {} "\"THEN\" = \"X\"".toList
      (default : Machine).random = .ok (.integer 0) (default : Machine).random := by
    with_unfolding_all rfl
  have hstop : ∀ m : Machine, execute 0 "STOP ELSE".toList ⟨{}, {}, 0⟩ m = .ok .halt m := by
    intro m
    exact Command.execute_keyword (w := "STOP".toList) (a := " ELSE".toList) rfl (by decide)
      (endsName_blank (by decide) _) 0 _ m
  refine ⟨ws, _, _, _, by rw [hws]; rfl, hparts, ?_⟩
  rw [if_splits_at_keywords ws hparts 0 ⟨{}, {}, 0⟩ default, hvalue]
  exact hstop _

/-- A line number with white space behind it is still a line number, and not a command. -/
theorem padded_number_is_jump :
    ∃ (p : Program) (ws : IfWords) (yes no : Text),
      Program.load "IF 1 THEN 30  ELSE STOP\n30 STOP".toList = .ok p ∧
      yes = "30 ".toList ∧ no = "STOP".toList ∧
      ws.statement "1".toList yes no = "IF 1 THEN 30  ELSE STOP".toList ∧
      Even ("1".toList.count '"') ∧ Even (yes.count '"') ∧
      ¬ HasWord "THEN".toList "1".toList ∧ ¬ HasWord "ELSE".toList yes ∧
      (isBlankText yes = false ∧ yes.all Number.isDigit = false) ∧
      (isBlankText no = false ∧ no.all Number.isDigit = false) ∧
      execute 0 (ws.statement "1".toList yes no) ⟨p, {}, 0⟩ default = .ok (.jump 1) default ∧
      executeNested 0 yes ⟨p, {}, 0⟩ default =
        .error (.unknownCommand "30".toList) { (default : Machine) with used := 1 } := by
  obtain ⟨p, first, second, hload, htarget, hprocedures, hfirst, hsecond⟩ : ∃ p first second,
      Program.load "IF 1 THEN 30  ELSE STOP\n30 STOP".toList = .ok p ∧
      p.target? "30".toList = some 1 ∧
      p.procedures = Program.indexProcedures 0 [first, second] {} ∧
      first.opens? = none ∧ second.opens? = none := ⟨_, _, _, rfl, rfl, rfl, rfl, rfl⟩
  have hprocedure : p.procedure? "30".toList = none := by
    rw [Program.procedure?, hprocedures, Program.indexProcedures, hfirst]
    dsimp only
    rw [Program.indexProcedures, hsecond]
    dsimp only
    rw [Program.indexProcedures]
    rfl
  have hread : Command.read p "IF 1 THEN 30  ELSE STOP".toList =
      .ifThen "1 ".toList (.jumpTo "30".toList) (.nested (Command.read p "STOP".toList)) :=
    Command.read_ifThen p (w := "IF".toList) (t := " 1 THEN 30  ELSE STOP".toList) rfl
      (endsName_blank (by decide) _) rfl
  have hvalue : Exec.evaluate "1 ".toList ⟨p, {}, 0⟩ default = .ok (.integer 1) default := by
    have hone : Expr.evaluate (default : Machine).vars {} "1 ".toList (default : Machine).random =
        .ok (.integer 1) (default : Machine).random := by with_unfolding_all rfl
    rw [Exec.evaluate, hone]
  have hcondition : Exec.condition "1 ".toList ⟨p, {}, 0⟩ default = .ok true default :=
    Exec.bind_of_ok hvalue
  have hjump : Exec.target "30".toList ⟨p, {}, 0⟩ default = .ok 1 default := by
    have hprogram : Exec.program ⟨p, {}, 0⟩ default = .ok p default := rfl
    refine (Exec.bind_of_ok hprogram).trans ?_
    rw [htarget]
    rfl
  have hunknown : Command.read p "30 ".toList = .unknown "30".toList := by
    have hclass : Family.classify "30".toList = .unknown := by decide
    have htrim : trim "30 ".toList = "30".toList := by decide
    have hword : firstWord "30".toList = "30".toList := by decide
    rw [Command.read, htrim, hclass]
    dsimp only
    rw [hword, hprocedure]
    rfl
  refine ⟨p, ⟨"IF".toList, "THEN".toList, "ELSE".toList, rfl, rfl, rfl⟩, _, _, hload, rfl, rfl, rfl,
    by decide, by decide, not_hasWord (by decide) (by decide), not_hasWord (by decide) (by decide),
    by decide, by decide, ?_, ?_⟩
  · change execute 0 "IF 1 THEN 30  ELSE STOP".toList ⟨p, {}, 0⟩ default = _
    rw [execute_eq_entering, hread]
    exact (Exec.bind_of_ok hcondition).trans (Exec.bind_of_ok hjump)
  · have hcharge : Exec.charge ⟨p, {}, 0⟩ default =
        .ok () { (default : Machine) with used := 1 } := rfl
    refine (Exec.bind_of_ok hcharge).trans ?_
    rw [execute_eq_entering, hunknown]
    rfl

end Basic

end Courseware
