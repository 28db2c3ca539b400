import Courseware.Proofs.Basic.Counting
import Courseware.Proofs.Basic.Keywords
import Courseware.Proofs.Command.Reading

/-!
The statements of a counting loop.

`FOR name = start TO limit STEP step` is cut at the equals sign, at `TO` and at `STEP` into the
parts that it was written from. So what is known of loops is known of the statements that make
them: a program that executes `FOR` and then `NEXT` again and again counts.
-/

namespace Courseware.Basic

open Text Exec

variable {env : Environment} {m m' : Machine} {name var start limit t : Text}
  {step : Option Text} {a b s : Int64} {room : Nat}

/-! ### Parts with white space around them -/

lemma loopNumber_congr {t u : Text} (h : trim t = trim u) : loopNumber t = loopNumber u := by
  unfold loopNumber
  rw [evaluate_congr h]

lemma forLoop_congr {start' limit' : Text} {step' : Option Text} (hstart : trim start' = trim start)
    (hlimit : trim limit' = trim limit) (hstep : step'.map trim = step.map trim) :
    forLoop name start' limit' step' = forLoop name start limit step := by
  unfold forLoop
  rw [loopNumber_congr hstart, loopNumber_congr hlimit]
  cases step with
  | none =>
    obtain rfl : step' = none := Option.map_eq_none_iff.1 hstep
    rfl
  | some t =>
    obtain ⟨u, rfl, hu⟩ := Option.map_eq_some_iff.1 hstep
    dsimp only
    rw [loopNumber_congr hu]

/-! ### `FOR` -/

/-- The keywords of the statement, in small letters or capitals. -/
structure ForWords where
  forWord : Text
  toWord : Text
  stepWord : Text
  for_eq : upper forWord = "FOR".toList
  to_eq : upper toWord = "TO".toList
  step_eq : upper stepWord = "STEP".toList

namespace ForWords

/-- The end of the statement, `limit` or `limit STEP step`. -/
def ending (ws : ForWords) (limit : Text) : Option Text → Text
  | none => limit
  | some t => limit ++ ' ' :: (ws.stepWord ++ ' ' :: t)

/-- What follows the equals sign. -/
def range (ws : ForWords) (start ending : Text) : Text :=
  ' ' :: (start ++ ' ' :: (ws.toWord ++ ' ' :: ending))

/-- The statement `FOR name = start TO limit STEP step`, where the step may be missing. -/
def statement (ws : ForWords) (name start limit : Text) (step : Option Text) : Text :=
  ws.forWord ++ ' ' :: (name ++ ' ' :: '=' :: ws.range start (ws.ending limit step))

end ForWords

/-- The parts of a statement that is complete, when the quotes before each keyword are closed and
the keyword does not occur earlier. -/
structure Complete (name start limit : Text) (step : Option Text) : Prop where
  target : Assignment.isTargetName name = true
  start_closed : Even (start.count '"')
  start_plain : ¬ HasWord "TO".toList start
  limit_closed : Even (limit.count '"')
  limit_plain : ¬ HasWord "STEP".toList limit
  not_blank : isBlankText (step.getD limit) = false

lemma isWordChar_of_isTargetName (h : Assignment.isTargetName name = true) {c : Char}
    (hc : c ∈ name) : isWordChar c = true := by
  rw [Assignment.isTargetName, Bool.and_eq_true, List.all_eq_true] at h
  rw [← List.mem_reverse, ← List.takeWhile_append_dropWhile (p := (· == '$')) (l := name.reverse),
    List.mem_append] at hc
  rcases hc with hc | hc
  · have hdollar := List.mem_takeWhile_imp hc
    simp [isWordChar, hdollar]
  · simp [isWordChar, h.2 c hc]

lemma not_blank_of_isTargetName (h : Assignment.isTargetName name = true) :
    name ≠ [] ∧ ∀ c ∈ name, isBlank c = false := by
  refine ⟨?_, fun c hc => ?_⟩
  · rintro rfl
    cases h
  · by_contra hblank
    have hword := isWordChar_of_isTargetName h hc
    rw [isWordChar_of_isBlank (by simpa using hblank)] at hword
    cases hword

/-- The name and what is assigned to it are cut at the equals sign. -/
lemma parse?_assignment (h : Assignment.isTargetName name = true) (x : Text) :
    Assignment.parse? (name ++ ' ' :: '=' :: x) = some ⟨name, trim x⟩ := by
  have hequals : '=' ∉ name ++ [' '] := by
    rw [List.mem_append, not_or]
    exact ⟨fun hc => absurd (isWordChar_of_isTargetName h hc) (by decide), by decide⟩
  have htrim : trim (name ++ [' ']) = name := by
    obtain ⟨hne, hblank⟩ := not_blank_of_isTargetName h
    rw [trim_append_blank (by decide), (solid_of_not_blank hne hblank).trim_eq]
  have hcut : cut? '=' (name ++ ' ' :: '=' :: x) = some (name ++ [' '], x) := by
    rw [List.append_cons, cut?_append hequals]
  unfold Assignment.parse?
  rw [hcut]
  dsimp only
  rw [htrim, if_pos h]

variable (ws : ForWords) {e : Text}

lemma trimEnd_range (he : isBlankText e = false) (s : Text) :
    trimEnd (s ++ ws.range start e) = s ++ ws.range start (trimEnd e) := by
  simpa [ForWords.range] using
    trimEnd_append he (s ++ ' ' :: (start ++ ' ' :: (ws.toWord ++ [' '])))

/-- The first number is cut off at the first keyword. -/
lemma atKeyword?_range (he : isBlankText e = false) (hplain : ¬ HasWord "TO".toList start)
    (hclosed : Even (start.count '"')) :
    atKeyword? "TO".toList (trim (ws.range start (trimEnd e))) =
      some (trimStart (' ' :: (start ++ [' '])), ' ' :: trimEnd e) := by
  have hend : trimEnd (ws.range start e) = ws.range start (trimEnd e) := trimEnd_range ws he []
  have htrim : trim (ws.range start (trimEnd e)) = trimStart (ws.range start (trimEnd e)) := by
    rw [← hend, trim_trimEnd, trim, trimStart_trimEnd_comm]
  rw [htrim, atKeyword?_trimStart (by decide), ForWords.range,
    atKeyword?_append (by decide) hplain hclosed (beq_iff_eq.2 ws.to_eq)]
  rfl

/-- What follows `FOR` is read as the parts of a loop, up to the limit and the step. -/
lemma readFor_range (h : Assignment.isTargetName name = true) (he : isBlankText e = false)
    (hplain : ¬ HasWord "TO".toList start) (hclosed : Even (start.count '"')) :
    Statement.readFor (trim (' ' :: (name ++ ' ' :: '=' :: ws.range start e))) =
      match atKeyword? "STEP".toList (' ' :: trimEnd e) with
      | none => .forLoop name (trimStart (' ' :: (start ++ [' ']))) (' ' :: trimEnd e) none
      | some (limit, step) =>
        .forLoop name (trimStart (' ' :: (start ++ [' ']))) limit (some step) := by
  have htrim : trim (' ' :: (name ++ ' ' :: '=' :: ws.range start e)) =
      name ++ ' ' :: '=' :: ws.range start (trimEnd e) := by
    obtain ⟨hne, hblank⟩ := not_blank_of_isTargetName h
    refine (trim_blank_append (b := [' ']) rfl _).trans ?_
    exact (trim_append_of_not_blank hne hblank _).trans
      (congrArg (name ++ ·) (trimEnd_range ws he [' ', '=']))
  have hto := atKeyword?_range ws he hplain hclosed
  cases hstep : atKeyword? "STEP".toList (' ' :: trimEnd e) <;>
    simp only [htrim, Statement.readFor, parse?_assignment h, hto, hstep]

/-- Where the step is missing, the limit is the rest of the statement. -/
lemma atKeyword?_limit (h : ¬ HasWord "STEP".toList limit) :
    atKeyword? "STEP".toList (' ' :: trimEnd limit) = none := by
  have hplain : ¬ HasWord "STEP".toList (trimEnd limit) := by
    intro hword
    obtain ⟨b, hb, hlimit⟩ := exists_blanks_trimEnd limit
    refine h ?_
    rw [← hlimit]
    exact hword.append_blanks hb
  rw [atKeyword?, cutKeyword?_blank (by decide) (by decide), Option.map_eq_none_iff]
  exact (atKeyword?_eq_none_iff (by decide)).2 hplain

/-- What is read are the parts, with some white space around them. -/
lemma exists_readFor_eq (h : Complete name start limit step) :
    ∃ start' limit' step',
      Statement.readFor
          (trim (' ' :: (name ++ ' ' :: '=' :: ws.range start (ws.ending limit step)))) =
        .forLoop name start' limit' step' ∧
      trim start' = trim start ∧ trim limit' = trim limit ∧ step'.map trim = step.map trim := by
  have hblank : ∀ t : Text, trim (' ' :: t) = trim t := trim_blank_append (b := [' ']) rfl
  cases step with
  | none =>
    -- without a step the limit goes to the end of the line
    have hlimit : isBlankText limit = false := h.not_blank
    refine ⟨_, ' ' :: trimEnd limit, none, ?_, trim_padded start, ?_, rfl⟩
    · rw [ForWords.ending, readFor_range ws h.target hlimit h.start_plain h.start_closed,
        atKeyword?_limit h.limit_plain]
    · rw [hblank, trim_trimEnd]
  | some t =>
    have ht : isBlankText t = false := h.not_blank
    -- the end of the line belongs to the step
    have hending : trimEnd (ws.ending limit (some t)) = ws.ending limit (some (trimEnd t)) := by
      simpa [ForWords.ending] using trimEnd_append ht (limit ++ ' ' :: (ws.stepWord ++ [' ']))
    have hsome : isBlankText (ws.ending limit (some t)) = false := by
      simp_all [ForWords.ending, isBlankText]
    have hstep := atKeyword?_append (by decide) h.limit_plain h.limit_closed
      (beq_iff_eq.2 ws.step_eq) (trimEnd t)
    refine ⟨_, ' ' :: (limit ++ [' ']), some (' ' :: trimEnd t), ?_, trim_padded start, ?_, ?_⟩
    · rw [readFor_range ws h.target hsome h.start_plain h.start_closed, hending, ForWords.ending,
        hstep]
    · rw [hblank, trim_append_blank (by decide)]
    · rw [Option.map_some, Option.map_some, hblank, trim_trimEnd]

/-- **`FOR` is executed with the parts that it was written from.** -/
lemma execute_for (h : Complete name start limit step) (room : Nat) (env : Environment)
    (m : Machine) :
    execute room (ws.statement name start limit step) env m =
      forLoop name start limit step env m := by
  have hkeyword : Keyword.ofName? (upper ws.forWord) = some .forLoop := by
    rw [ws.for_eq]
    rfl
  obtain ⟨start', limit', step', hread, hstart, hlimit, hstep⟩ := exists_readFor_eq ws h
  rw [ForWords.statement, Command.execute_keyword hkeyword (by decide)
    (endsName_blank (by decide) _), Statement.ofKeyword, hread]
  exact congrFun (congrFun (forLoop_congr hstart hlimit hstep) env) m

/-- A keyword in quotes belongs to the limit, and no step is no part of the statement. -/
example :
    ∃ ws : ForWords,
      ws.statement "i".toList "10".toList "LEN(\"a STEP b\")".toList none =
        "for i = 10 To LEN(\"a STEP b\")".toList ∧
      Complete "i".toList "10".toList "LEN(\"a STEP b\")".toList none :=
  ⟨⟨"for".toList, "To".toList, "STEP".toList, by decide, by decide, by decide⟩, rfl,
    { target := by decide
      start_closed := by decide
      start_plain := (atKeyword?_eq_none_iff (by decide)).1 (by decide)
      limit_closed := by decide
      limit_plain := (atKeyword?_eq_none_iff (by decide)).1 (by decide)
      not_blank := by decide }⟩

/-! ### `NEXT` -/

/-- The statements that end a pass of the loop over `var`: `NEXT` by itself, for the innermost loop,
or with the name of the variable. -/
inductive IsNext (var : Text) : Text → Prop where
  | intro {w a : Text} (hw : upper w = "NEXT".toList) (ha : EndsName a)
      (hname : Closes (trim a) var) : IsNext var (w ++ a)

lemma IsNext.execute_eq (h : IsNext var t) :
    ∃ name, Closes name var ∧ ∀ room env m, execute room t env m = next name env m := by
  obtain ⟨hw, ha, hname⟩ := h
  refine ⟨_, hname, fun room env m => ?_⟩
  refine Command.execute_keyword (k := .next) ?_ (by decide) ha room env m
  rw [hw]
  rfl

/-- The machine `m` is reached from `m₀` by executing `NEXT` for the loop over `var` `k` times, with
anything between that leaves the variable and the loops alone. -/
inductive Executed (var : Text) (m₀ : Machine) : ℕ → Machine → Prop where
  | entered : Executed var m₀ 0 m₀
  | aside {k : ℕ} {m m' : Machine} (h : Executed var m₀ k m) (hm : Untouched var m m') :
      Executed var m₀ k m'
  | next {k room : ℕ} {m m' : Machine} {t : Text} {env : Environment} {d : Directive}
      (h : Executed var m₀ k m) (ht : IsNext var t) (hnext : execute room t env m = .ok d m') :
      Executed var m₀ (k + 1) m'

lemma Executed.passed {k : ℕ} {m₀ : Machine} (h : Executed var m₀ k m) : Passed var m₀ k m := by
  induction h with
  | entered => exact .entered
  | aside _ hm ih => exact ih.aside hm
  | next _ ht hnext ih =>
    obtain ⟨name, hname, hexecute⟩ := ht.execute_eq
    rw [hexecute] at hnext
    exact ih.next hname hnext

/-! ### The whole loop -/

/-- **The statements `FOR` and `NEXT` count.** After `FOR name = a TO b STEP s` the variable is
`a + k * s` when `NEXT` has been executed `k` times. Every `NEXT` but that of the last pass goes
back to the line behind the `FOR`, and the last one goes on. -/
theorem statements_count (h : Complete name start limit step)
    (hbounds : Bounds env m start limit step a b s m') (hexact : Exact a b s)
    (hfresh : ∀ f ∈ m.loops, f.var ≠ canonical name) :
    ∃ m₀, execute room (ws.statement name start limit step) env m = .ok .next m₀ ∧
      ∀ k m₁, Executed (canonical name) m₀ k m₁ → k ≤ passes a b s →
        Counted (canonical name) (env.index + 1) m.loops a b s k m₁ ∧
        (k < passes a b s → ∀ t room' env', IsNext (canonical name) t →
          ∃ m₂, execute room' t env' m₁ =
            .ok (if k + 1 < passes a b s then .jump (env.index + 1) else .next) m₂) := by
  obtain ⟨m₀, hfor, hat⟩ := exists_forLoop_eq hbounds hfresh
  refine ⟨m₀, (execute_for ws h room env m).trans hfor, fun k m₁ hexecuted hk => ?_⟩
  have hcounted := (Counted.of_at hat).of_passed hexact hexecuted.passed hk
  refine ⟨hcounted, fun hlt t room' env' ht => ?_⟩
  obtain ⟨name', hname, hexecute⟩ := ht.execute_eq
  obtain ⟨m₂, hnext, -⟩ := hcounted.next env' hexact hname hlt
  exact ⟨m₂, (hexecute room' env' m₁).trans hnext⟩

/-- **The statements of a loop with a step of zero** make one pass if the start is below the limit,
and go back forever otherwise. -/
theorem statements_of_zero_step (h : Complete name start limit step)
    (hbounds : Bounds env m start limit step a b 0 m') (ha : |a.toInt| ≤ 2 ^ 53)
    (hb : |b.toInt| ≤ 2 ^ 53) (hfresh : ∀ f ∈ m.loops, f.var ≠ canonical name) :
    ∃ m₀, execute room (ws.statement name start limit step) env m = .ok .next m₀ ∧
      ∀ k m₁, Executed (canonical name) m₀ k m₁ → (k = 0 ∨ b.toInt ≤ a.toInt) →
        ∀ t room' env', IsNext (canonical name) t →
          ∃ m₂, execute room' t env' m₁ =
              .ok (if a.toInt < b.toInt then .next else .jump (env.index + 1)) m₂ ∧
            At (canonical name) a (if a.toInt < b.toInt then m.loops
              else counting (canonical name) b 0 (env.index + 1) :: m.loops) m₂ := by
  obtain ⟨m₀, hfor, hat⟩ := exists_forLoop_eq hbounds hfresh
  refine ⟨m₀, (execute_for ws h room env m).trans hfor, fun k m₁ hexecuted hk t room' env' ht => ?_⟩
  obtain ⟨name', hname, hexecute⟩ := ht.execute_eq
  rw [hexecute]
  exact next_zero env' hname ha hb (hat.of_passed ha hb hexecuted.passed hk)

end Courseware.Basic
