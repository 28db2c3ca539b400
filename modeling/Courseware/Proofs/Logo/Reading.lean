import Courseware.Logo.Sentence
import Courseware.Proofs.Text.Words

/-!
How Logo reads a line.

A text is cut into the words that white space separates, unless brackets, semicolons or quotes
are in it. A command without a block is read off the words in front, and the rest of the line
follows it.
-/

namespace Courseware.Logo

open Text

/-- The characters by which Logo cuts a text apart from white space. -/
def isMark (c : Char) : Bool := c == ';' || c == '[' || c == ']' || isQuote c

lemma flush_eq_words {s : Text} (hs : ∀ c ∈ s, isBlank c = false) (us : List Word) :
    flush s us = (words s.reverse).map .atom ++ us := by
  unfold flush
  split
  · next h => simp [h]
  · next h =>
    have hne : s.reverse ≠ [] := mt List.reverse_eq_nil_iff.1 h
    rw [words_of_not_blank hne fun c hc => hs c (List.mem_reverse.1 hc)]
    rfl

lemma splitFrom_eq_words {current t : Text} (hcurrent : ∀ c ∈ current, isBlank c = false)
    (ht : ∀ c ∈ t, isMark c = false) :
    splitFrom current t = .ok ((words (current.reverse ++ t)).map .atom) := by
  induction t generalizing current with
  | nil =>
    rw [splitFrom, flush_eq_words hcurrent]
    simp
  | cons c t ih =>
    have hmark := ht c List.mem_cons_self
    have hrest : ∀ c ∈ t, isMark c = false := fun d hd => ht d (List.mem_cons_of_mem c hd)
    simp only [isMark, Bool.or_eq_false_iff, beq_eq_false_iff_ne] at hmark
    rw [splitFrom]
    by_cases hc : isBlank c = true
    · -- the word that was being read ends here
      rw [if_pos hc, ih (by simp) hrest, words_append_cons hc, List.map_append]
      exact congrArg Except.ok (flush_eq_words hcurrent _)
    · rw [if_neg hc, if_neg hmark.1.1.1, if_neg hmark.1.1.2, if_neg hmark.1.2,
        if_neg (by simp [hmark.2]), ih (by simpa [hc] using hcurrent) hrest]
      simp

/-- **Logo cuts a text without marks into its words.** -/
theorem splitWords_eq_words {t : Text} (ht : ∀ c ∈ t, isMark c = false) :
    splitWords t = .ok ((words t).map .atom) :=
  splitFrom_eq_words (fun c hc => by cases hc) ht

variable {p : Program} {verb : Text} {ws : List Word}

/-- A command without a block, and then the rest of the line. -/
lemma sentences_simple {s : Simple} {rest : List Word}
    (h : readPhrase p verb ws = (.simple s, rest)) :
    sentences p (.atom verb :: ws) = .simple s :: sentences p rest := by
  rw [sentences]
  split
  · next heq =>
    cases heq.symm.trans h
    rfl
  · next heq => cases heq.symm.trans h
  · next heq => cases heq.symm.trans h

/-- The head of a definition. Its name is left in place. -/
lemma sentences_define {n : Text} (p : Program) (ws : List Word)
    (h : sameWord verb "TO".toList = true) :
    sentences p (.atom verb :: .atom n :: ws) =
      .simple (.define (some n)) :: sentences p (.atom n :: ws) := by
  have hup : upper verb = "TO".toList := beq_iff_eq.1 h
  refine sentences_simple ?_
  unfold readPhrase
  rw [hup]
  rfl

/-- A call of a procedure without parameters. -/
lemma sentences_call {q : Procedure} (hv : Verb.ofName? (upper verb) = none)
    (hq : p.procedure? verb = some q) (hparams : q.params = []) :
    sentences p (.atom verb :: ws) = .simple (.call verb q []) :: sentences p ws := by
  refine sentences_simple ?_
  unfold readPhrase
  rw [hv]
  dsimp only
  rw [readCall, hq]
  dsimp only
  rw [hparams]
  rfl

end Courseware.Logo
