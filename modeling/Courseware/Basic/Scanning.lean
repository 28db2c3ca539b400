import Courseware.Text.Blank
import Courseware.Text.Letter

/-!
Cutting statements at keywords and separators. Only double quotes protect a text here.
-/

namespace Courseware.Basic

open Text

/-- The characters of a word, for finding where keywords begin and end. -/
def isWordChar (c : Char) : Bool := isNameChar c || c == '$'

/-- What follows the keyword, if the text begins with it as a whole word. -/
def stripKeyword? (k t : Text) : Option Text :=
  if sameWord (t.take k.length) k && !(t.drop k.length).head?.any isWordChar then
    some (t.drop k.length)
  else none

/-- The texts before and after the first occurrence of a keyword as a whole word outside
double quotes; `boundary` tells whether a word may begin here. -/
def cutKeyword? (k : Text) (quoted boundary : Bool) : Text → Option (Text × Text)
  | [] => none
  | c :: t =>
    let skip := fun (quoted : Bool) =>
      (cutKeyword? k quoted (!isWordChar c) t).map fun (s, r) => (c :: s, r)
    if quoted then skip (c != '"')
    else if c = '"' then skip true
    else
      match if boundary then stripKeyword? k (c :: t) else none with
      | some r => some ([], r)
      | none => skip false

/-- Cuts a text at a keyword. -/
def atKeyword? (k t : Text) : Option (Text × Text) := cutKeyword? k false true t

/-- The pieces of a text between separators outside double quotes and parentheses, each with
the separator that ends it. A last piece without separator is left out if it is empty, unless
it is the only one. -/
def splitTop (first : Bool) (quoted : Bool) (depth : Int) (current : Text) :
    Text → List (Text × Option Char)
  | [] => if current = [] ∧ !first then [] else [(current.reverse, none)]
  | c :: t =>
    if c = '"' then splitTop first (!quoted) depth (c :: current) t
    else if c = '(' ∧ !quoted then splitTop first quoted (depth + 1) (c :: current) t
    else if c = ')' ∧ !quoted then splitTop first quoted (depth - 1) (c :: current) t
    else if (c = ';' ∨ c = ',') ∧ !quoted ∧ depth = 0 then
      (current.reverse, some c) :: splitTop false false 0 [] t
    else splitTop first quoted depth (c :: current) t

/-- The pieces of a statement between semicolons and commas. -/
def topPieces (t : Text) : List (Text × Option Char) := splitTop true false 0 [] t

theorem length_of_stripKeyword? {k t r : Text} (h : stripKeyword? k t = some r) :
    r.length ≤ t.length := by
  unfold stripKeyword? at h
  split at h
  · cases h
    simp
  · cases h

/-- The two parts together are no longer than the whole. -/
theorem length_of_cutKeyword? {k t s r : Text} {quoted boundary : Bool}
    (h : cutKeyword? k quoted boundary t = some (s, r)) : s.length + r.length ≤ t.length := by
  induction t generalizing quoted boundary s with
  | nil => cases h
  | cons c t ih =>
    have hskip : ∀ {q b : Bool},
        (cutKeyword? k q b t).map (fun (s, r) => (c :: s, r)) = some (s, r) →
          s.length + r.length ≤ (c :: t).length := by
      intro q b hq
      obtain ⟨⟨s', r'⟩, hc, he⟩ := Option.map_eq_some_iff.1 hq
      cases he
      have := ih hc
      simp only [List.length_cons]
      omega
    rw [cutKeyword?] at h
    dsimp only at h
    split at h
    · exact hskip h
    · split at h
      · exact hskip h
      · split at h
        · next r' hr =>
          cases h
          split at hr
          · simpa using length_of_stripKeyword? hr
          · cases hr
        · exact hskip h

end Courseware.Basic
