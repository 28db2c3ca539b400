import Courseware.Table
import Courseware.Value

/-!
Variables, and texts that mention them. Names are compared without regard to surrounding
white space and to the case of the letters `a` to `z`.
-/

namespace Courseware

/-- The values of the variables, listed by name. Every key is in canonical form. -/
abbrev Variables := Table Value

namespace Variables

def value? (vars : Variables) (name : Text) : Option Value := vars.get? (Text.canonical name)

def has (vars : Variables) (name : Text) : Bool := (vars.value? name).isSome

def set (vars : Variables) (name : Text) (v : Value) : Variables :=
  vars.insert (Text.canonical name) v

theorem value?_set (vars : Variables) (name : Text) (v : Value) (n : Text) :
    (vars.set name v).value? n =
      if Text.canonical n = Text.canonical name then some v else vars.value? n :=
  Table.get?_insert vars (Text.canonical name) v (Text.canonical n)

/-- The variable that `t`, the text after an asterisk, names up to the next asterisk, with
the text that follows. The name has no white space at its ends. -/
def occurrence? (vars : Variables) (t : Text) : Option (Value × Text) :=
  match Text.cut? '*' t with
  | none => none
  | some (n, r) => if n ≠ [] ∧ Text.trim n = n then (vars.value? n).map (·, r) else none

theorem length_of_occurrence? {vars : Variables} {t r : Text} {v : Value}
    (h : vars.occurrence? t = some (v, r)) : r.length < t.length := by
  unfold occurrence? at h
  split at h
  · cases h
  · next n r' hc =>
    split at h
    · obtain ⟨w, -, he⟩ := Option.map_eq_some_iff.1 h
      cases he
      have := Text.length_of_cut? hc
      omega
    · cases h

/-- Fills in the variables named between asterisks. An asterisk that opens no known name is
kept, and what was filled in is not looked at again. -/
def interpolate (vars : Variables) (t : Text) : Text :=
  match t with
  | [] => []
  | c :: r =>
    if c = '*' then
      match _h : vars.occurrence? r with
      | some (v, rest) => v.display ++ interpolate vars rest
      | none => c :: interpolate vars r
    else c :: interpolate vars r
termination_by t.length
decreasing_by
  · have := length_of_occurrence? _h
    simp only [List.length_cons]
    omega
  · simp
  · simp

end Variables

end Courseware
