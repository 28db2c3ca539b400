import Courseware.Proofs.Logo.TextArguments

/-!
A text that is put into quotes is read back by all who read texts in quotes.

There are three of them: the scan that finds the tokens of an expression, the test for words that
are literals, and the cut of a line into words. Each looks for the closing quote in its own way.
Since the quote that is chosen is not in the text, all of them end where the text ends, whatever
brackets, semicolons, white space or other quotes are in it.
-/

namespace Courseware.Logo

open Text Courseware.Expr

variable {t q : Text}

/-- Only a text with both kinds of quotes cannot be quoted. -/
lemma quote?_eq_none_iff (t : Text) : quote? t = none ↔ '"' ∈ t ∧ '\'' ∈ t := by
  unfold quote?
  by_cases hd : '"' ∈ t
  · by_cases hs : '\'' ∈ t <;> simp [hd, hs]
  · simp [hd]

/-- A quoted text stands between two quotes of a kind that is not in it. -/
lemma eq_inQuotes_of_quote? (h : quote? t = some q) :
    ∃ c, isQuote c = true ∧ c ∉ t ∧ q = inQuotes c t := by
  have hquotes : '"' ∉ t ∨ '\'' ∉ t := by
    by_contra hboth
    rw [not_or, not_not, not_not] at hboth
    rw [(quote?_eq_none_iff t).2 hboth] at h
    cases h
  obtain ⟨c, hc, hct, hquote⟩ := quote?_eq hquotes
  exact ⟨c, hc, hct, Option.some.inj (h.symm.trans hquote)⟩

lemma literal?_inQuotes {c : Char} (hc : isQuote c = true) (ht : c ∉ t) :
    literal? (inQuotes c t) = some t := by
  have hquoted : quoted? (inQuotes c t) = some t := quoted?_of_not_mem hc ht
  unfold literal?
  rw [hquoted]

/-- **Quoting and its readers agree.** A text can be quoted unless it holds both kinds of quotes.
The quoted text is a single token, the text itself, as an expression; it is a literal that stands
for the text; and in a line it is one word, if the line ends behind it or goes on with white space
or a semicolon. What follows it is then cut as it would be on its own, and fails as it would. -/
theorem quoted_text_reads_back (t : Text) :
    (quote? t = none ↔ '"' ∈ t ∧ '\'' ∈ t) ∧
      ∀ q, quote? t = some q →
        (∀ (vars : Variables) (limits : Limits), 1 ≤ limits.maxTokens →
          Token.tokenize vars limits q = .ok [.literal (.text t)]) ∧
        literal? q = some t ∧
        ∀ s : Text, (s = [] ∨ ∃ c r, s = c :: r ∧ (isBlank c = true ∨ c = ';')) →
          splitWords (q ++ s) = (splitWords s).map (.atom q :: ·) := by
  refine ⟨quote?_eq_none_iff t, fun q hquote => ?_⟩
  obtain ⟨c, hc, ht, rfl⟩ := eq_inQuotes_of_quote? hquote
  refine ⟨fun vars limits hlimit => ?_, literal?_inQuotes hc ht, fun s hs => ?_⟩
  · rw [Token.tokenize_of_reads (reads_inQuotes hc ht)]
    exact if_pos hlimit
  · have hends : endsQuoted s = true := by
      rcases hs with rfl | ⟨d, r, rfl, hd | rfl⟩
      · rfl
      · simp [endsQuoted, hd]
      · rfl
    exact splitFrom_inQuotes hc ht hends

/-- A text with brackets, a semicolon, white space and quotes of one kind, before a bracket that is
never closed. -/
theorem quoted_text_reads_back_marks :
    quote? "a ]; \"b\" [".toList = some "'a ]; \"b\" ['".toList ∧
      Token.tokenize {} {} "'a ]; \"b\" ['".toList =
        .ok [.literal (.text "a ]; \"b\" [".toList)] ∧
      literal? "'a ]; \"b\" ['".toList = some "a ]; \"b\" [".toList ∧
      splitWords "'a ]; \"b\" [' FD 10".toList =
        (splitWords " FD 10".toList).map (.atom "'a ]; \"b\" ['".toList :: ·) ∧
      splitWords "'a ]; \"b\" [';[".toList =
        (splitWords ";[".toList).map (.atom "'a ]; \"b\" ['".toList :: ·) := by
  have hquote : quote? "a ]; \"b\" [".toList = some "'a ]; \"b\" ['".toList := by decide
  obtain ⟨htokens, hliteral, hwords⟩ := (quoted_text_reads_back "a ]; \"b\" [".toList).2 _ hquote
  exact ⟨hquote, htokens {} {} (by decide), hliteral,
    hwords " FD 10".toList (.inr ⟨' ', _, rfl, .inl (by decide)⟩),
    hwords ";[".toList (.inr ⟨';', _, rfl, .inr rfl⟩)⟩

end Courseware.Logo
