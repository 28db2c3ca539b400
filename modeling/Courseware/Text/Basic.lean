/-!
Texts are lists of characters, so that every scan is a recursion on its input. This module
holds the operations that look at no character class: letter case, cutting and joining.
-/

namespace Courseware

abbrev Text := List Char

namespace Text

/-- Raises the letters `a` to `z`; names and keywords are compared in this form. -/
def upper (t : Text) : Text := t.map Char.toUpper

/-- Lowers the letters `A` to `Z`. -/
def lower (t : Text) : Text := t.map Char.toLower

/-- Equality up to the case of the letters `a` to `z`. -/
def sameWord (s t : Text) : Bool := upper s == upper t

/-- What follows `p`, if the text begins with it. -/
def stripPrefix? : (p t : Text) → Option Text
  | [], t => some t
  | _ :: _, [] => none
  | c :: p, d :: t => if c = d then stripPrefix? p t else none

/-- The parts before and after the first occurrence of `c`. -/
def cut? (c : Char) : Text → Option (Text × Text)
  | [] => none
  | d :: t => if d = c then some ([], t) else (cut? c t).map fun (s, r) => (d :: s, r)

/-- The pieces between the characters that satisfy `p`; always at least one piece. -/
def pieces (p : Char → Bool) : Text → List Text
  | [] => [[]]
  | c :: t =>
    if p c then [] :: pieces p t
    else
      match pieces p t with
      | [] => [[c]]
      | s :: ss => (c :: s) :: ss

/-- Drops one trailing carriage return. -/
def dropReturn (t : Text) : Text :=
  if t.getLast? = some '\r' then t.dropLast else t

/-- The lines of a text. A line ends at a line feed, together with a carriage return just
before it; a last line need not be ended. -/
def lines (t : Text) : List Text :=
  let ps := pieces (· == '\n') t
  let last := ps.getLast?.getD []
  ps.dropLast.map dropReturn ++ (if last = [] then [] else [last])

/-- Puts `sep` between the given texts. -/
def join (sep : Text) : List Text → Text
  | [] => []
  | [t] => t
  | t :: ts => t ++ sep ++ join sep ts

/-- The order of texts by code point, a beginning before its continuations. -/
def order : Text → Text → Ordering
  | [], [] => .eq
  | [], _ :: _ => .lt
  | _ :: _, [] => .gt
  | c :: s, d :: t =>
    if c.toNat < d.toNat then .lt else if d.toNat < c.toNat then .gt else order s t

/-- The text as a string, for messages. -/
def str (t : Text) : String := String.ofList t

theorem length_of_cut? {c : Char} {t s r : Text} (h : cut? c t = some (s, r)) :
    t.length = s.length + r.length + 1 := by
  induction t generalizing s with
  | nil => cases h
  | cons d t ih =>
    rw [cut?] at h
    split at h
    · cases h
      simp
    · obtain ⟨⟨s', r'⟩, hc, he⟩ := Option.map_eq_some_iff.1 h
      cases he
      have := ih hc
      simp only [List.length_cons]
      omega

end Text

end Courseware
