import Courseware.Host
import Mathlib.Tactic.Lemma

/-!
Requests that are written out are read back.

Each word of a request may stand in double quotes, and has to if there is white space in it. The
scan forgets the quotes, and remembers of them only whether one is open. So the word that is being
read is the same for both ways of writing it, and it ends at the white space behind it.
-/

namespace Courseware.Request

open Text

variable {quoted : Bool} {c : Char} {current w s b t r : Text} {ws : List Text}

/-- The words of a request, in the order in which they are written. -/
def words (q : Request) : List Text := q.subsystem :: q.verb :: q.args

/-- The ways to write a word. -/
inductive Spelling (w : Text) : Text → Prop where
  | quoted : Spelling w ('"' :: (w ++ ['"']))
  | bare (hw : ∀ c ∈ w, isBlank c = false) : Spelling w w

/-- The text has the given words, one after the other, with white space between them. -/
inductive Lists : Text → List Text → Prop where
  | last {w s : Text} (hs : Spelling w s) : Lists s [w]
  | cons {w s b t : Text} {ws : List Text} (hs : Spelling w s) (hne : b ≠ [])
      (hb : b.all isBlank = true) (h : Lists t ws) : Lists (s ++ (b ++ t)) (w :: ws)

/-! ### The scan -/

lemma splitQuoted_quote (quoted : Bool) (current t : Text) :
    splitQuoted quoted current ('"' :: t) = splitQuoted (!quoted) current t := by
  rw [splitQuoted, if_pos rfl]

/-- Characters that neither end the word nor are quotes are added to it. -/
lemma splitQuoted_append (hw : ∀ c ∈ w, c ≠ '"' ∧ (isBlank c = true → quoted = true)) :
    splitQuoted quoted current (w ++ r) = splitQuoted quoted (w.reverse ++ current) r := by
  induction w generalizing current with
  | nil => rfl
  | cons c w ih =>
    rw [List.forall_mem_cons] at hw
    have hblank : ¬ (isBlank c = true ∧ (!quoted) = true) := by
      rintro ⟨hc, hq⟩
      simp [hw.1.2 hc] at hq
    rw [List.cons_append, splitQuoted, if_neg hw.1.1, if_neg hblank, ih hw.2, List.reverse_cons,
      List.append_assoc]
    rfl

/-- Both ways to write a word leave the scan in the same state. -/
lemma splitQuoted_spelling (hs : Spelling w s) (hw : '"' ∉ w) (r : Text) :
    splitQuoted false [] (s ++ r) = splitQuoted false w.reverse r := by
  have hquote : ∀ c ∈ w, c ≠ '"' := fun c hc he => hw (he ▸ hc)
  cases hs with
  | quoted =>
    rw [List.cons_append, splitQuoted_quote, Bool.not_false, List.append_assoc,
      splitQuoted_append fun c hc => ⟨hquote c hc, fun _ => rfl⟩, List.append_nil,
      List.singleton_append, splitQuoted_quote, Bool.not_true]
  | bare hbare =>
    rw [splitQuoted_append, List.append_nil]
    intro c hc
    refine ⟨hquote c hc, fun hblank => ?_⟩
    rw [hbare c hc] at hblank
    cases hblank

lemma ne_quote_of_isBlank (hc : isBlank c = true) : c ≠ '"' := by
  rintro rfl
  cases hc

lemma splitQuoted_blanks (hb : b.all isBlank = true) (t : Text) :
    splitQuoted false [] (b ++ t) = splitQuoted false [] t := by
  induction b with
  | nil => rfl
  | cons c b ih =>
    rw [List.all_cons, Bool.and_eq_true] at hb
    rw [List.cons_append, splitQuoted, if_neg (ne_quote_of_isBlank hb.1),
      if_pos ⟨hb.1, rfl⟩, if_pos rfl, ih hb.2]

/-- White space ends the word before it, however much there is. -/
lemma splitQuoted_gap (hne : b ≠ []) (hb : b.all isBlank = true) (hcurrent : current ≠ [])
    (t : Text) :
    splitQuoted false current (b ++ t) = current.reverse :: splitQuoted false [] t := by
  obtain ⟨c, b, rfl⟩ := List.exists_cons_of_ne_nil hne
  rw [List.all_cons, Bool.and_eq_true] at hb
  rw [List.cons_append, splitQuoted, if_neg (ne_quote_of_isBlank hb.1), if_pos ⟨hb.1, rfl⟩,
    if_neg hcurrent, splitQuoted_blanks hb.2]

/-- The words that are written are the words that are found. -/
theorem splitQuoted_of_lists (h : Lists t ws) (hws : ∀ w ∈ ws, w ≠ [] ∧ '"' ∉ w) :
    splitQuoted false [] t = ws := by
  induction h with
  | @last w s hs =>
    obtain ⟨hne, hquote⟩ := hws w List.mem_cons_self
    have hword : splitQuoted false w.reverse [] = [w] := by
      rw [splitQuoted, if_neg (by simpa using hne), List.reverse_reverse]
    rw [← hword, ← splitQuoted_spelling hs hquote, List.append_nil]
  | @cons w s b t ws hs hne hb h ih =>
    rw [List.forall_mem_cons] at hws
    obtain ⟨⟨hword, hquote⟩, hrest⟩ := hws
    rw [splitQuoted_spelling hs hquote, splitQuoted_gap hne hb (by simpa using hword),
      List.reverse_reverse, ih hrest]

/-! ### Requests -/

/-- **Reading a request undoes writing it**, whichever of its words are in quotes and whatever
white space is between them. -/
theorem parse_of_lists {q : Request} (hwords : ∀ w ∈ q.words, w ≠ [] ∧ '"' ∉ w)
    (hsubsystem : upper q.subsystem = q.subsystem) (hverb : upper q.verb = q.verb)
    (h : Lists t q.words) : parse? t = some q := by
  have hsplit : splitQuoted false [] t = q.subsystem :: q.verb :: q.args :=
    splitQuoted_of_lists h hwords
  simp only [parse?, hsplit, hsubsystem, hverb]

/-- A word in quotes that need not be, a bare word, white space of other kinds than the space, and
arguments of several words or of white space alone. -/
theorem parse_of_lists_mixed :
    Lists "\"SOUND\"\t PLAY\n\"two  words\" 3 \" \"".toList
        ["SOUND".toList, "PLAY".toList, "two  words".toList, "3".toList, " ".toList] ∧
      parse? "\"SOUND\"\t PLAY\n\"two  words\" 3 \" \"".toList =
        some ⟨"SOUND".toList, "PLAY".toList, ["two  words".toList, "3".toList, " ".toList]⟩ := by
  have hlists : Lists "\"SOUND\"\t PLAY\n\"two  words\" 3 \" \"".toList
      ["SOUND".toList, "PLAY".toList, "two  words".toList, "3".toList, " ".toList] :=
    .cons (w := "SOUND".toList) (b := "\t ".toList) .quoted (by decide) rfl <|
      .cons (w := "PLAY".toList) (b := "\n".toList) (.bare (by simp [isBlank])) (by decide) rfl <|
        .cons (w := "two  words".toList) (b := " ".toList) .quoted (by decide) rfl <|
          .cons (w := "3".toList) (b := " ".toList) (.bare (by simp [isBlank])) (by decide) rfl <|
            .last (w := " ".toList) .quoted
  exact ⟨hlists, parse_of_lists (by decide) rfl rfl hlists⟩

end Courseware.Request
