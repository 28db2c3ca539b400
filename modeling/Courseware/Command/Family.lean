import Courseware.Basic.Statement
import Courseware.Logo.Verb
import Courseware.Pilot.Command

/-!
Which of the three languages a command belongs to. PILOT comes first, then BASIC, then Logo;
what belongs to none may still be the call of a procedure.
-/

namespace Courseware

open Text

inductive Family where
  | pilot
  | basic
  | logo
  | unknown
deriving DecidableEq

namespace Family

/-- The name that a command begins with. -/
def leadingWord (t : Text) : Text := (splitName t).1

/-- A name with an equals sign after it, but not two of them. -/
def isAssignment (t : Text) : Bool :=
  let (w, rest) := splitName t
  w.head?.any isNameStart &&
    match trimStart rest with
    | '=' :: '=' :: _ => false
    | '=' :: _ => true
    | _ => false

def isBasic (t : Text) : Bool :=
  (Basic.Keyword.ofName? (upper (leadingWord t))).isSome || isAssignment t

/-- The first word must be a verb that is no keyword of BASIC. -/
def isLogo (t : Text) : Bool :=
  let w := upper (firstWord t)
  (Logo.Verb.ofName? w).isSome && (Basic.Keyword.ofName? w).isNone

def classify (t : Text) : Family :=
  if (Pilot.split? t).isSome then .pilot
  else if isBasic t then .basic
  else if isLogo t then .logo
  else .unknown

end Family

end Courseware
