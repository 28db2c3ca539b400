import Courseware.Text.Blank

/-!
Texts in quotes, single or double. A quoted text cannot hold its own quote.
-/

namespace Courseware.Text

def isQuote (c : Char) : Bool := c == '"' || c == '\''

/-- The contents of a text that is one quoted literal. -/
def quoted? (t : Text) : Option Text :=
  match trim t with
  | [] => none
  | q :: r =>
    if isQuote q then
      match cut? q r with
      | some (inner, []) => some inner
      | _ => none
    else none

/-- The text in quotes, double ones if it holds none; nothing if it holds both kinds. -/
def quote? (t : Text) : Option Text :=
  if '"' ∉ t then some ('"' :: t ++ ['"'])
  else if '\'' ∉ t then some ('\'' :: t ++ ['\''])
  else none

end Courseware.Text
