import Courseware.Proofs.Command.Nesting
import Courseware.Proofs.Logo.Sequencing
import Courseware.Proofs.Logo.TextArguments

/-!
Brackets and how they are matched.

The cut into words takes a block up to the bracket that closes it, and finds that bracket by
counting brackets alone. What is between them is therefore balanced, and every balanced text can be
a block. The cut itself leaves quoted words in one piece, with the brackets that they may hold,
which the count of a block around them does not know. So a line can be put between brackets just
if the brackets inside its quoted words are balanced among themselves.
-/

namespace Courseware.Logo

open Text

variable {s t r b : Text} {c : Char} {n d : Nat}

/-! ### Balanced texts -/

/-- A text in which square brackets come in pairs, each around a balanced text. -/
inductive Balanced : Text → Prop where
  | nil : Balanced []
  | plain {c : Char} {t : Text} (hopen : c ≠ '[') (hclose : c ≠ ']') (h : Balanced t) :
      Balanced (c :: t)
  | block {s t : Text} (hs : Balanced s) (ht : Balanced t) : Balanced ('[' :: (s ++ ']' :: t))

/-- How many brackets are open after a text, if `n` are open before it; nothing if more are closed
than are open somewhere in it. -/
def level (n : Nat) : Text → Option Nat
  | [] => some n
  | c :: t =>
    if c = '[' then level (n + 1) t
    else if c = ']' then (if n = 0 then none else level (n - 1) t)
    else level n t

lemma level_open (n : Nat) (t : Text) : level n ('[' :: t) = level (n + 1) t := rfl

lemma level_close (n : Nat) (t : Text) : level (n + 1) (']' :: t) = level n t := rfl

lemma level_plain (hopen : c ≠ '[') (hclose : c ≠ ']') (n : Nat) (t : Text) :
    level n (c :: t) = level n t := by
  rw [level, if_neg hopen, if_neg hclose]

lemma level_append (n : Nat) (s t : Text) : level n (s ++ t) = (level n s).bind (level · t) := by
  induction s generalizing n with
  | nil => rfl
  | cons c s ih =>
    rw [List.cons_append, level, level]
    split
    · exact ih _
    · split
      · split
        · rfl
        · exact ih _
      · exact ih _

lemma level_of_balanced (h : Balanced t) (n : Nat) : level n t = some n := by
  induction h generalizing n with
  | nil => rfl
  | plain hopen hclose _ ih => rw [level_plain hopen hclose, ih]
  | block _ _ ihs iht => rw [level_open, level_append, ihs, Option.bind_some, level_close, iht]

/-- A text that closes one bracket more than it opens does so behind a balanced text. -/
lemma exists_close_of_level (h : level (n + 1) t = some 0) :
    ∃ a b, t = a ++ ']' :: b ∧ Balanced a ∧ level n b = some 0 := by
  induction hk : t.length using Nat.strongRecOn generalizing t n with
  | ind k ih =>
    subst hk
    cases t with
    | nil => cases h
    | cons c t =>
      by_cases hopen : c = '['
      · subst hopen
        -- the bracket that opens here is closed first
        rw [level_open] at h
        obtain ⟨a, b, rfl, ha, hb⟩ := ih t.length (Nat.lt_succ_self _) h rfl
        have hshort : b.length < ('[' :: (a ++ ']' :: b)).length := by
          simp only [List.length_cons, List.length_append]
          omega
        obtain ⟨a', b', rfl, ha', hb'⟩ := ih b.length hshort hb rfl
        exact ⟨'[' :: (a ++ ']' :: a'), b', by simp, .block ha ha', hb'⟩
      · by_cases hclose : c = ']'
        · subst hclose
          exact ⟨[], t, rfl, .nil, h⟩
        · rw [level_plain hopen hclose] at h
          obtain ⟨a, b, rfl, ha, hb⟩ := ih t.length (Nat.lt_succ_self _) h rfl
          exact ⟨c :: a, b, rfl, .plain hopen hclose ha, hb⟩

/-- **Counting brackets decides whether they are balanced.** -/
theorem balanced_iff_level (t : Text) : Balanced t ↔ level 0 t = some 0 := by
  refine ⟨fun h => level_of_balanced h 0, fun h => ?_⟩
  induction hk : t.length using Nat.strongRecOn generalizing t with
  | ind k ih =>
    subst hk
    cases t with
    | nil => exact .nil
    | cons c t =>
      by_cases hopen : c = '['
      · subst hopen
        obtain ⟨a, b, rfl, ha, hb⟩ := exists_close_of_level (n := 0) h
        have hshort : b.length < ('[' :: (a ++ ']' :: b)).length := by
          simp only [List.length_cons, List.length_append]
          omega
        exact .block ha (ih b.length hshort b hb rfl)
      · by_cases hclose : c = ']'
        · subst hclose
          cases h
        · rw [level_plain hopen hclose] at h
          exact .plain hopen hclose (ih t.length (Nat.lt_succ_self _) t h rfl)

instance : DecidablePred Balanced := fun t => decidable_of_iff _ (balanced_iff_level t).symm

/-! ### Blocks -/

/-- The search for the closing bracket passes over a balanced text. -/
lemma closeBlock?_append (h : Balanced s) (d : Nat) (r : Text) :
    closeBlock? d (s ++ r) = (closeBlock? d r).map fun x => (s ++ x.1, x.2) := by
  induction h generalizing d r with
  | nil => simp
  | @plain c t hopen hclose _ ih =>
    rw [List.cons_append, closeBlock?, if_neg (by simp [hclose])]
    dsimp only
    rw [if_neg hopen, if_neg hclose, ih, Option.map_map]
    rfl
  | @block s t _ _ ihs iht =>
    have htext : '[' :: (s ++ ']' :: t) ++ r = '[' :: (s ++ (']' :: (t ++ r))) := by simp
    -- the depth goes up by one and comes back
    rw [htext, closeBlock?, if_neg (by simp)]
    dsimp only
    rw [if_pos rfl, ihs, closeBlock?, if_neg (by simp)]
    dsimp only
    rw [if_neg (by decide), if_pos rfl, Nat.add_sub_cancel, iht]
    simp [Option.map_map, Function.comp_def]

lemma of_closeBlock? (h : closeBlock? d t = some (s, r)) :
    t = s ++ ']' :: r ∧ level d s = some 0 := by
  induction t generalizing d s with
  | nil => cases h
  | cons c t ih =>
    rw [closeBlock?] at h
    split at h
    · next hc =>
      cases h
      exact ⟨by rw [hc.1]; rfl, by rw [hc.2]; rfl⟩
    · next hc =>
      obtain ⟨⟨s', r'⟩, hrest, he⟩ := Option.map_eq_some_iff.1 h
      cases he
      obtain ⟨rfl, hlevel⟩ := ih hrest
      refine ⟨rfl, ?_⟩
      rw [level]
      split
      · next hopen => rw [if_pos hopen] at hlevel; exact hlevel
      · next hopen =>
        rw [if_neg hopen] at hlevel
        split
        · next hclose =>
          rw [if_pos hclose] at hlevel
          rw [if_neg fun hd => hc ⟨hclose, hd⟩]
          exact hlevel
        · next hclose => rw [if_neg hclose] at hlevel; exact hlevel

/-- **A block is a balanced text up to its bracket.** -/
theorem closeBlock?_eq_some_iff :
    closeBlock? 0 t = some (s, r) ↔ t = s ++ ']' :: r ∧ Balanced s := by
  constructor
  · intro h
    obtain ⟨rfl, hlevel⟩ := of_closeBlock? h
    exact ⟨rfl, (balanced_iff_level s).2 hlevel⟩
  · rintro ⟨rfl, hs⟩
    rw [closeBlock?_append hs]
    simp [closeBlock?]

/-! ### Words -/

lemma exists_of_map_eq_ok {ε α β : Type} {f : α → β} {x : Except ε α} {y : β}
    (h : x.map f = .ok y) : ∃ a, x = .ok a ∧ f a = y := by
  cases x with
  | error e => cases h
  | ok a => exact ⟨a, rfl, Except.ok.inj h⟩

lemma eq_error_of_map {ε α β : Type} {f : α → β} {x : Except ε α} {e : ε}
    (h : x.map f = .error e) : x = .error e := by
  cases x with
  | error e => exact congrArg Except.error (Except.error.inj h)
  | ok a => cases h

lemma eq_of_quotedWord? {q : Char} {w : Text} (h : quotedWord? q t = some (w, r)) :
    ∃ inner, w = inQuotes q inner ∧ q :: t = w ++ r := by
  unfold quotedWord? at h
  split at h
  · next inner r' hc =>
    split at h
    · cases h
      refine ⟨inner, rfl, ?_⟩
      rw [eq_of_cut? hc]
      simp
    · cases h
  · cases h

lemma mem_flush {current : Text} {ws : List Word} {w : Word} :
    w ∈ flush current ws ↔ (current ≠ [] ∧ w = .atom current.reverse) ∨ w ∈ ws := by
  unfold flush
  split
  · next h => simp [h]
  · next h => simp [h]

/-- What a word is written with, blocks apart. -/
def Word.letters : Word → Text
  | atom t => t
  | _ => []

lemma letters_flush (current : Text) (ws : List Word) :
    (flush current ws).flatMap Word.letters = current.reverse ++ ws.flatMap Word.letters := by
  unfold flush
  split
  · next h => simp [h]
  · rfl

lemma level_flush {current : Text} {ws : List Word}
    (h : ∀ k, level k t = level k (ws.flatMap Word.letters)) (n : Nat) :
    level n (current.reverse ++ t) = level n ((flush current ws).flatMap Word.letters) := by
  rw [letters_flush, level_append, level_append]
  congr 1
  funext k
  exact h k

lemma not_bracket_of_isBlank (h : isBlank c = true) : c ≠ '[' ∧ c ≠ ']' := by
  constructor <;> rintro rfl <;> exact absurd h (by decide)

/-- How a text that is accepted is cut into words, where `current` holds the word being read, last
character first. -/
inductive Cut : (current t : Text) → List Word → Prop where
  | done {current : Text} : Cut current [] (flush current [])
  | blank {current t : Text} {c : Char} {ws : List Word} (hc : isBlank c = true)
      (h : Cut [] t ws) : Cut current (c :: t) (flush current ws)
  | pause {current t : Text} {ws : List Word} (h : Cut [] t ws) :
      Cut current (';' :: t) (flush current (.pause :: ws))
  | block {current b t : Text} {ws : List Word} (hb : Balanced b) (h : Cut [] t ws) :
      Cut current ('[' :: (b ++ ']' :: t)) (flush current (.block b :: ws))
  | quoted {q : Char} {u t : Text} {ws : List Word} (hq : isQuote q = true) (h : Cut [] t ws) :
      Cut [] (inQuotes q u ++ t) (.atom (inQuotes q u) :: ws)
  | letter {current t : Text} {c : Char} {ws : List Word} (hopen : c ≠ '[') (hclose : c ≠ ']')
      (h : Cut (c :: current) t ws) : Cut current (c :: t) ws

lemma cut_of_splitFrom {current : Text} {ws : List Word} (h : splitFrom current t = .ok ws) :
    Cut current t ws := by
  fun_induction splitFrom current t generalizing ws with
  | case1 current =>
    cases h
    exact .done
  | case2 current c r hc ih =>
    obtain ⟨us, hr, rfl⟩ := exists_of_map_eq_ok h
    exact .blank hc (ih hr)
  | case3 current r _ ih =>
    obtain ⟨us, hr, rfl⟩ := exists_of_map_eq_ok h
    exact .pause (ih hr)
  -- a block that is not closed
  | case4 => cases h
  | case5 current r inner rest hc _ _ ih =>
    obtain ⟨us, hr, rfl⟩ := exists_of_map_eq_ok h
    obtain ⟨rfl, hinner⟩ := closeBlock?_eq_some_iff.1 hc
    exact .block hinner (ih hr)
  -- a bracket that closes no block
  | case6 => cases h
  | case7 current c r _ _ _ _ hq w rest hw ih =>
    obtain ⟨us, hr, rfl⟩ := exists_of_map_eq_ok h
    obtain ⟨inner, rfl, htext⟩ := eq_of_quotedWord? hw
    rw [htext, hq.2]
    exact .quoted hq.1 (ih hr)
  | case8 current c r _ _ hopen hclose hq _ ih =>
    -- a quote that is not closed is a letter like others
    rw [hq.2]
    exact .letter hopen hclose (ih h)
  | case9 current c r _ _ hopen hclose _ ih => exact .letter hopen hclose (ih h)

namespace Cut

variable {current a : Text} {ws : List Word}

/-- Every block is balanced, and stands in the text. -/
lemma balanced (h : Cut current t ws) (hb : .block b ∈ ws) : Balanced b ∧ b <:+: t := by
  induction h with
  | done => simp [mem_flush] at hb
  | blank _ _ ih =>
    obtain ⟨hbal, hin⟩ := ih (by simpa [mem_flush] using hb)
    exact ⟨hbal, List.infix_cons hin⟩
  | pause _ ih =>
    obtain ⟨hbal, hin⟩ := ih (by simpa [mem_flush] using hb)
    exact ⟨hbal, List.infix_cons hin⟩
  | @block _ b' t _ hb' _ ih =>
    have hcases := mem_flush.1 hb
    simp only [reduceCtorEq, and_false, false_or, List.mem_cons, Word.block.injEq] at hcases
    rcases hcases with rfl | hb
    · exact ⟨hb', List.infix_cons (List.prefix_append _ _).isInfix⟩
    · obtain ⟨hbal, hin⟩ := ih hb
      exact ⟨hbal, hin.trans ⟨'[' :: (b' ++ [']']), [], by simp⟩⟩
  | quoted _ _ ih =>
    obtain ⟨hbal, hin⟩ := ih (by simpa using hb)
    exact ⟨hbal, hin.trans (List.suffix_append _ _).isInfix⟩
  | letter _ _ _ ih =>
    obtain ⟨hbal, hin⟩ := ih hb
    exact ⟨hbal, List.infix_cons hin⟩

/-- A word that holds a bracket is in quotes. -/
lemma quoted_of_bracket (h : Cut current t ws) (hcurrent : ∀ c ∈ current, c ≠ '[' ∧ c ≠ ']')
    (ha : .atom a ∈ ws) (hbracket : '[' ∈ a ∨ ']' ∈ a) :
    ∃ q u, isQuote q = true ∧ a = inQuotes q u := by
  -- the word that is being read is free of brackets
  have hplain : ∀ {cs : Text}, (∀ c ∈ cs, c ≠ '[' ∧ c ≠ ']') → a ≠ cs.reverse := by
    rintro cs hcs rfl
    rcases hbracket with hmem | hmem
    · exact (hcs _ (List.mem_reverse.1 hmem)).1 rfl
    · exact (hcs _ (List.mem_reverse.1 hmem)).2 rfl
  induction h with
  | done => simp [mem_flush, hplain hcurrent] at ha
  | blank _ _ ih => exact ih (by simp) (by simpa [mem_flush, hplain hcurrent] using ha)
  | pause _ ih => exact ih (by simp) (by simpa [mem_flush, hplain hcurrent] using ha)
  | block _ _ ih => exact ih (by simp) (by simpa [mem_flush, hplain hcurrent] using ha)
  | @quoted q u _ _ hq _ ih =>
    rcases List.mem_cons.1 ha with ha | ha
    · cases ha
      exact ⟨q, u, hq, rfl⟩
    · exact ih (by simp) ha
  | letter hopen hclose _ ih =>
    exact ih (List.forall_mem_cons.2 ⟨⟨hopen, hclose⟩, hcurrent⟩) ha

/-- The brackets of a text are those inside its words, apart from those of blocks, which are
balanced anyway. -/
lemma level_eq (h : Cut current t ws) (n : Nat) :
    level n (current.reverse ++ t) = level n (ws.flatMap Word.letters) := by
  induction h generalizing n with
  | done => simp [letters_flush]
  | blank hc _ ih =>
    obtain ⟨hopen, hclose⟩ := not_bracket_of_isBlank hc
    exact level_flush (fun k => (level_plain hopen hclose k _).trans (ih k)) n
  | pause _ ih =>
    refine level_flush (fun k => ?_) n
    exact (level_plain (by decide) (by decide) k _).trans (ih k)
  | @block _ b t _ hb _ ih =>
    refine level_flush (fun k => ?_) n
    calc level k ('[' :: (b ++ ']' :: t))
      _ = (level (k + 1) b).bind (level · (']' :: t)) := level_append (k + 1) b _
      _ = level k t := by rw [level_of_balanced hb, Option.bind_some, level_close]
      _ = _ := ih k
  | @quoted q u t ws _ _ ih =>
    rw [List.flatMap_cons, Word.letters, List.reverse_nil, List.nil_append, level_append,
      level_append]
    congr 1
    funext k
    exact ih k
  | letter _ _ _ ih =>
    have hrest := ih n
    rw [List.reverse_cons, List.append_assoc] at hrest
    exact hrest

end Cut

/-- The brackets of a text that is cut into words are balanced if those inside the words are. -/
lemma balanced_iff_letters {ws : List Word} (h : splitWords t = .ok ws) :
    Balanced t ↔ Balanced (ws.flatMap Word.letters) := by
  have hlevel := (cut_of_splitFrom h).level_eq 0
  rw [List.reverse_nil, List.nil_append] at hlevel
  rw [balanced_iff_level, balanced_iff_level, hlevel]

/-! ### A line between brackets -/

lemma splitFrom_block {current : Text} (hs : Balanced s) (r : Text) :
    splitFrom current ('[' :: (s ++ ']' :: r)) =
      (splitFrom [] r).map fun ws => flush current (.block s :: ws) := by
  have hclose : closeBlock? 0 (s ++ ']' :: r) = some (s, r) := closeBlock?_eq_some_iff.2 ⟨rfl, hs⟩
  rw [splitFrom, if_neg (by decide), if_neg (by decide), if_pos rfl]
  split
  · next heq => cases heq.symm.trans hclose
  · next heq =>
    cases heq.symm.trans hclose
    rfl

/-- A text between brackets is a block if it is balanced, and only then. -/
lemma splitWords_wrapped_iff (t : Text) :
    splitWords ('[' :: (t ++ [']'])) = .ok [.block t] ↔ Balanced t := by
  constructor
  · intro h
    exact ((cut_of_splitFrom h).balanced List.mem_cons_self).1
  · intro h
    rw [splitWords, splitFrom_block h, splitFrom]
    rfl

/-- The text `REPEAT 1 [w]`. -/
def onceOver (w : Text) : Text := "REPEAT 1 [".toList ++ (w ++ "]".toList)

lemma splitWords_onceOver (h : Balanced t) :
    splitWords (onceOver t) = .ok [.atom "REPEAT".toList, .atom "1".toList, .block t] := by
  have htext : onceOver t = 'R' :: 'E' :: 'P' :: 'E' :: 'A' :: 'T' :: ' ' :: '1' :: ' ' ::
      '[' :: (t ++ [']']) := rfl
  rw [splitWords, htext, splitFrom_plain (by decide) (by decide),
    splitFrom_plain (by decide) (by decide), splitFrom_plain (by decide) (by decide),
    splitFrom_plain (by decide) (by decide), splitFrom_plain (by decide) (by decide),
    splitFrom_plain (by decide) (by decide), splitFrom_blank (by decide),
    splitFrom_plain (by decide) (by decide), splitFrom_blank (by decide), splitFrom_block h,
    splitFrom]
  rfl

/-- The line `REPEAT 1 [w]` repeats the commands of `w`. -/
lemma read_onceOver (p : Program) {ws : List Word} (hbalanced : Balanced t)
    (h : splitWords t = .ok ws) :
    Command.read p (onceOver t) = .logo [.repeatBlock "1".toList (sentences p ws)] := by
  have htext : onceOver t = "REPEAT".toList ++ ' ' :: '1' :: ' ' :: '[' :: (t ++ [']']) := rfl
  have htrim : trim (onceOver t) = onceOver t := by
    exact trim_of_ends (c := 'R') (d := ']') (by decide) (by decide) ("EPEAT 1 [".toList ++ t)
  have hassign : Family.isAssignment (onceOver t) = false := by
    rw [htext, Family.isAssignment, splitName_append (by decide) (endsName_blank (by decide) _)]
    rfl
  have hclass : Family.classify (onceOver t) = .logo := by
    rw [htext] at hassign ⊢
    exact classify_verb rfl (by decide) _ rfl rfl hassign
  have hphrase : readPhrase p "REPEAT".toList [.atom "1".toList, .block t] =
      (.repeatBlock "1".toList t, []) := rfl
  rw [Command.read, htrim, hclass]
  dsimp only
  rw [Command.readBlock, splitWords_onceOver hbalanced]
  dsimp only
  rw [sentences_atom, hphrase, Phrase.sentence, h]
  dsimp only
  rw [sentences]

section

open Exec

variable {env : Environment} {m : Machine}

lemma repeatCount_one (hlimit : 1 ≤ env.settings.limits.maxTokens) :
    repeatCount "1".toList env m = .ok 1 m := by
  have hreads : Expr.Token.Reads m.vars true "1".toList [.literal (.integer 1)] := by
    have hvalue : Expr.Token.numeralValue "1".toList [] [] = .integer 1 :=
      Expr.Token.numeralValue_of_word rfl
    have h : Expr.Token.Reads m.vars true ("1".toList ++ [])
        [.literal (Expr.Token.numeralValue "1".toList [] [])] :=
      .numeral (by decide) (by decide) (by simp [Expr.Token.EndsNumeral]) .nil
    rw [hvalue] at h
    exact h
  have hresolve : resolve "1".toList env m = .ok (.integer 1) m :=
    resolve_eq (expand_of_not_mentions rfl) (Expr.evaluate_literal hreads hlimit)
  have hvalue : fatally (resolve "1".toList) env m = .ok (.integer 1) m := by
    rw [fatally, hresolve]
  -- as a count the number goes through a float
  have hcount : (Number.truncateWithin 0 (UInt64.size - 1) (Number.ofWord 1)).toNat = 1 := by
    decide +kernel
  refine (bind_of_ok hvalue).trans ?_
  exact congrArg (EStateM.Result.ok · m) hcount

/-- A single pass is all that there is to repeating once. -/
lemma repeatFrom_one (f : Nat → Exec Directive) (i : Nat) :
    repeatFrom f 1 i env m = f i env m := by
  rw [repeatFrom]
  refine (bind_next env m _ _).trans ?_
  split
  · next m' heq => rw [heq]; rfl
  · rfl

lemma runAll_single (enter : Text → Exec Directive) (s : Sentence) :
    runAll enter [s] false env m = s.run enter env m := by
  rw [runAll]
  refine (bind_next env m _ _).trans ?_
  split
  · next m' heq => rw [heq, runAll]; rfl
  · rfl

/-- **Repeating a line once is a pass over its commands.** -/
lemma execute_onceOver (room : Nat) {ws : List Word} (hbalanced : Balanced t)
    (h : splitWords t = .ok ws) (hlimit : 1 ≤ env.settings.limits.maxTokens) :
    execute room (onceOver t) env m =
      pass (entering room) (sentences env.program ws) 1 env m := by
  rw [execute_eq_entering, read_onceOver env.program hbalanced h, Command.run, runAll_single,
    run_repeatBlock]
  exact (bind_of_ok (repeatCount_one hlimit)).trans (repeatFrom_one _ 1)

end

/-- **A line may be put between brackets if the brackets inside its quoted words are balanced, and
only then.** No other word of the line holds a bracket. The line is then the block, and repeating
the block once is a pass over the commands of the line. -/
theorem wrapped_iff_quoted_balanced {w : Text} {ws : List Word} (h : splitWords w = .ok ws) :
    (splitWords ('[' :: (w ++ [']'])) = .ok [.block w] ↔ Balanced (ws.flatMap Word.letters)) ∧
      (∀ a, .atom a ∈ ws → '[' ∈ a ∨ ']' ∈ a → ∃ q u, isQuote q = true ∧ a = inQuotes q u) ∧
      (Balanced (ws.flatMap Word.letters) → ∀ (room : Nat) (env : Environment) (m : Machine),
        1 ≤ env.settings.limits.maxTokens →
          execute room ("REPEAT 1 [".toList ++ (w ++ "]".toList)) env m =
            pass (entering room) (sentences env.program ws) 1 env m) := by
  have hletters := balanced_iff_letters h
  refine ⟨(splitWords_wrapped_iff w).trans hletters, fun a ha hbracket => ?_,
    fun hbalanced room env m hlimit => ?_⟩
  · exact (cut_of_splitFrom h).quoted_of_bracket (by simp) ha hbracket
  · exact execute_onceOver room (hletters.2 hbalanced) h hlimit

/-- A line with a block, and with brackets in two quoted words that are balanced. -/
theorem wrapped_iff_quoted_balanced_pair :
    ∃ ws, splitWords "PR \"a [\" REPEAT 2 [FD 1]; PR 'b ]'".toList = .ok ws ∧
      Balanced (ws.flatMap Word.letters) ∧
      splitWords "[PR \"a [\" REPEAT 2 [FD 1]; PR 'b ]']".toList =
        .ok [.block "PR \"a [\" REPEAT 2 [FD 1]; PR 'b ]'".toList] := by
  refine ⟨[.atom "PR".toList, .atom "\"a [\"".toList, .atom "REPEAT".toList, .atom "2".toList,
    .block "FD 1".toList, .pause, .atom "PR".toList, .atom "'b ]'".toList], ?_⟩
  have hwords : splitWords "PR \"a [\" REPEAT 2 [FD 1]; PR 'b ]'".toList =
      .ok [.atom "PR".toList, .atom "\"a [\"".toList, .atom "REPEAT".toList, .atom "2".toList,
        .block "FD 1".toList, .pause, .atom "PR".toList, .atom "'b ]'".toList] := by cbv
  have hbalanced : Balanced ([.atom "PR".toList, .atom "\"a [\"".toList, .atom "REPEAT".toList,
      .atom "2".toList, .block "FD 1".toList, .pause, .atom "PR".toList,
      .atom "'b ]'".toList].flatMap Word.letters) := by decide
  exact ⟨hwords, hbalanced, (wrapped_iff_quoted_balanced hwords).1.2 hbalanced⟩

/-- A bracket inside of quotes is text in a line, but not in a block. -/
theorem quoted_bracket_ends_block :
    splitWords "PR \"]\"".toList = .ok [.atom "PR".toList, .atom "\"]\"".toList] ∧
      splitWords "[PR \"]\"]".toList = .error .unbalancedClose ∧
      splitWords "PR \"[\"".toList = .ok [.atom "PR".toList, .atom "\"[\"".toList] ∧
      splitWords "[PR \"[\"]".toList = .error .unbalancedOpen := by
  refine ⟨?_, ?_, ?_, ?_⟩ <;> cbv

end Courseware.Logo
