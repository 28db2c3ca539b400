import Courseware.Command.Error
import Courseware.Text.Letter
import Courseware.Text.Literal
import Courseware.Variables

/-!
References, `:NAME`, are replaced by values before an expression is evaluated. A number is
put in as it is displayed and a text in quotes.
-/

namespace Courseware.Logo

open Text

/-- The text of a literal word: in quotes, or with just a double quote in front. -/
def literal? (w : Text) : Option Text :=
  match quoted? w with
  | some t => some t
  | none =>
    match w with
    | '"' :: r => if '"' ∈ r then none else some r
    | _ => none

/-- How a value is put into an expression. -/
def spliced : Value → Except Misuse Text
  | .text t =>
    match quote? t with
    | some q => .ok q
    | none => .error (.bothQuotes t)
  | v => .ok v.display

/-- Replaces the references of an expression by the values of variables. -/
def expand (vars : Variables) (t : Text) : Except ExecError Text :=
  match t with
  | [] => .ok []
  | c :: r =>
    if c = ':' ∧ r.head?.any isNameStart then
      let name := r.takeWhile isNameChar
      match vars.value? name with
      | none => .error (.eval (.unknownSymbol (upper name)) false)
      | some v =>
        match spliced v with
        | .error m => .error (.misuse m)
        | .ok s => (expand vars (r.dropWhile isNameChar)).map (s ++ ·)
    else (expand vars r).map (c :: ·)
termination_by t.length
decreasing_by
  · have := length_dropWhile_le isNameChar r
    simp only [List.length_cons]
    omega
  · simp

/-- Replaces the parameters that a line of a procedure refers to by arguments. -/
def substitute (args : List (Text × Value)) (t : Text) : Except Misuse Text :=
  match t with
  | [] => .ok []
  | c :: r =>
    if c = ':' then
      let name := r.takeWhile isNameChar
      let rest := r.dropWhile isNameChar
      match if name = [] then none else args.lookup (upper name) with
      | none => (substitute args rest).map (c :: name ++ ·)
      | some v =>
        match spliced v with
        | .error m => .error m
        | .ok s => (substitute args rest).map (s ++ ·)
    else (substitute args r).map (c :: ·)
termination_by t.length
decreasing_by
  · have := length_dropWhile_le isNameChar r
    simp only [List.length_cons]
    omega
  · have := length_dropWhile_le isNameChar r
    simp only [List.length_cons]
    omega
  · simp

end Courseware.Logo
