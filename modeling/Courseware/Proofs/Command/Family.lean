import Courseware.Command.Family
import Courseware.Proofs.Text.Canonical
import Courseware.Proofs.Text.Names

/-!
Which family a command belongs to that begins with a word.
-/

namespace Courseware

open Text

variable {w : Text} {s : Char} (hw : isName w = true) (hs : isBlank s = true) (r : Text)

include hs

lemma endsName_blank : EndsName (s :: r) := by
  rintro c ⟨⟩
  refine ⟨isNameChar_of_isBlank hs, ?_⟩
  rintro rfl
  exact absurd hs (by decide)

include hw

lemma words_name : words (w ++ s :: r) = w :: words r := by
  have hne : w ≠ [] := by
    rintro rfl
    cases hw
  have hblank : ∀ c ∈ w, isBlank c = false := by
    intro c hc
    rw [isName, Bool.and_eq_true, List.all_eq_true] at hw
    by_contra hb
    have hname := hw.2 c hc
    rw [isNameChar_of_isBlank (by simpa using hb)] at hname
    cases hname
  rw [words_append_cons hs, words_of_not_blank hne hblank]
  rfl

/-- White space is no part of the code of a PILOT command. -/
lemma split?_name : Pilot.split? (w ++ s :: r) = none := by
  have hword := hw
  rw [isName, Bool.and_eq_true, List.all_eq_true] at hword
  have hcolon : ':' ∉ w ++ [s] := by
    rw [List.mem_append, List.mem_singleton, not_or]
    refine ⟨fun hc => absurd (hword.2 _ hc) (by decide), ?_⟩
    rintro rfl
    exact absurd hs (by decide)
  -- a code has no white space in it
  have hcode : ∀ a, Pilot.isCode (w ++ [s] ++ a) = false := by
    intro a
    have hlong : upper (w ++ [s] ++ a) ∉ Pilot.longCodes := by
      intro hmem
      have hplain : (Pilot.longCodes.all fun t => t.all fun c => !isBlank c) = true := rfl
      have hblank := List.all_eq_true.1 (List.all_eq_true.1 hplain _ hmem) s.toUpper
        (List.mem_map_of_mem (by simp))
      rw [isBlank_toUpper, hs] at hblank
      cases hblank
    unfold Pilot.isCode
    split
    · next c heq =>
      cases w with
      | nil => cases hword.1
      | cons d w => simp at heq
    · simpa using hlong
  unfold Pilot.split?
  rw [← List.singleton_append, ← List.append_assoc, cut?_append_of_not_mem hcolon]
  cases cut? ':' r with
  | none => rfl
  | some x =>
    rw [Option.map_some]
    exact if_neg (by simp only [hcode, Bool.false_eq_true, not_false_eq_true])

/-- A command that begins with a verb of Logo belongs to Logo, unless BASIC knows the word as a
keyword or it is a variable to which a value is assigned. -/
lemma classify_verb (hverb : (Logo.Verb.ofName? (upper w)).isSome = true)
    (hkeyword : Basic.Keyword.ofName? (upper w) = none)
    (hassign : Family.isAssignment (w ++ s :: r) = false) :
    Family.classify (w ++ s :: r) = .logo := by
  have hword : w.all isNameChar = true := by
    rw [isName, Bool.and_eq_true] at hw
    exact hw.2
  have hbasic : Family.isBasic (w ++ s :: r) = false := by
    rw [Family.isBasic, Family.leadingWord, splitName_append hword (endsName_blank hs r), hkeyword,
      hassign]
    rfl
  have hlogo : Family.isLogo (w ++ s :: r) = true := by
    rw [Family.isLogo, firstWord, words_name hw hs, List.headD_cons, hverb, hkeyword]
    rfl
  rw [Family.classify, split?_name hw hs, hbasic, hlogo]
  rfl

end Courseware
