import Courseware.Text.Blank
import Courseware.Text.Letter

/-!
Assignments, `NAME = EXPRESSION`.
-/

namespace Courseware

open Text

/-- What is assigned to which name. -/
structure Assignment where
  name : Text
  expr : Text
deriving DecidableEq

namespace Assignment

/-- A name may end in dollar signs. -/
def isTargetName (t : Text) : Bool :=
  t.head?.any isNameStart && (t.reverse.dropWhile (· == '$')).all isNameChar

/-- Reads an assignment, at the first equals sign. -/
def parse? (t : Text) : Option Assignment :=
  match cut? '=' t with
  | none => none
  | some (n, e) => if isTargetName (trim n) then some ⟨trim n, trim e⟩ else none

end Assignment

end Courseware
