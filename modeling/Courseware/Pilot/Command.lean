import Courseware.Text.Blank

/-!
The commands of PILOT: a code of one or two letters, a colon and an operand.
-/

namespace Courseware.Pilot

open Text

/-- When a command that depends on the last test is carried out. -/
inductive Condition where
  /-- Unless a fresh outcome is false; the outcome is consumed. -/
  | unlessFailed
  /-- If the last outcome, fresh or not, is the given one. -/
  | onLast (b : Bool)
deriving DecidableEq

inductive Command where
  | type (c : Condition) (t : Text)
  | test (condition : Text)
  | jump (c : Condition) (label : Text)
  | label
  | assign (t : Text)
  | comeBack
  | accept (name : Text)
  | call (t : Text)
  | finish
  | unknown (t : Text)
deriving DecidableEq

/-- The codes of two letters. -/
def longCodes : List Text :=
  ["TY".toList, "TN".toList, "JY".toList, "JN".toList, "MT".toList]

def isCode (t : Text) : Bool :=
  match t with
  | [c] => c.isAlpha
  | t => longCodes.contains (upper t)

/-- Splits a command into its code, in capitals, and the text after the colon. -/
def split? (t : Text) : Option (Text × Text) :=
  match cut? ':' t with
  | none => none
  | some (code, rest) => if isCode code then some (upper code, rest) else none

/-- The variable that input goes to, without the signs in front of it. -/
def acceptName (t : Text) : Text :=
  if t = [] then "ANSWER".toList else (t.dropWhile (· == '#')).dropWhile (· == '$')

/-- A label may be written with asterisks in front. -/
def labelOf (t : Text) : Text := (trim t).dropWhile (· == '*')

/-- The command with a given code, whose operand has no white space at its ends; `whole` is
the command as written. -/
def Command.ofCode (whole code operand : Text) : Command :=
  if code = "T".toList then .type .unlessFailed operand
  else if code = "TY".toList ∨ code = "MT".toList then .type (.onLast true) operand
  else if code = "TN".toList then .type (.onLast false) operand
  else if code = "Y".toList ∨ code = "N".toList then .test operand
  else if code = "J".toList then .jump .unlessFailed (labelOf operand)
  else if code = "JY".toList ∨ code = "M".toList then .jump (.onLast true) (labelOf operand)
  else if code = "JN".toList then .jump (.onLast false) (labelOf operand)
  else if code = "L".toList then .label
  else if code = "U".toList then .assign operand
  else if code = "C".toList then if '=' ∈ operand then .assign operand else .comeBack
  else if code = "A".toList then .accept (acceptName operand)
  else if code = "R".toList then .call operand
  else if code = "E".toList then .finish
  else .unknown whole

end Courseware.Pilot
