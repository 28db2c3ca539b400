import Courseware.Command.Assignment
import Courseware.Machine.Basic
import Courseware.Pilot.Command
import Courseware.Text.Literal

/-!
Executing the commands of PILOT.
-/

namespace Courseware.Pilot

open Text Exec

/-- Whether a command is to be carried out; a fresh outcome is consumed by asking. -/
def Condition.holds : Condition → Exec Bool
  | .unlessFailed => do
    let (b, v) := (← get).verdict.take
    modify fun m => { m with verdict := v }
    return b ≠ some false
  | .onLast b => do return (← get).verdict.last = b

/-- Stores the outcome of a test; a condition that fails counts as false. -/
def test (t : Text) : Exec Directive := fun env m =>
  match condition t env m with
  | .ok b m => .ok .next { m with verdict := m.verdict.arm b }
  | .error e m => .error e { m with verdict := m.verdict.arm false }

def jump (label : Text) : Exec Directive := do
  if label = [] then misused .noLabel
  return .jump (← target label)

/-- The contents of a quoted text, or the value of an expression. -/
def assigned (t : Text) : Exec Value :=
  match quoted? t with
  | some u => do return .text (← interpolate u)
  | none => evaluate t

def assign (t : Text) : Exec Directive := do
  match Assignment.parse? t with
  | none => misused (.notAssignment t)
  | some a =>
    setVariable a.name (← assigned a.expr)
    return .next

def accept (name : Text) : Exec Directive := do
  match ← readLine "? ".toList with
  | none => fail (.noInput (upper name))
  | some line =>
    setVariable name (.ofInput line)
    return .next

/-- Calls a subroutine by its label, or else passes a request of at least two words on to the
host. -/
def call (t : Text) : Exec Directive := do
  let label := labelOf t
  if label = [] then misused .noRequest
  match (← program).target? label with
  | some i => enterSubroutine i
  | none =>
    if (words t).length < 2 then fail (.undefinedLabel label)
    match Request.parse? (← interpolate t) with
    | none => misused .noRequest
    | some r =>
      setVariable "RESULT".toList (← request r)
      return .next

def Command.run : Command → Exec Directive
  | .type c t => do
    if ← c.holds then print (← interpolate t)
    return .next
  | .test t => Pilot.test t
  | .jump c t => do
    if ← c.holds then Pilot.jump t else return .next
  | .label => return .next
  | .assign t => Pilot.assign t
  | .comeBack => leaveSubroutine "C:" "R:"
  | .accept name => Pilot.accept name
  | .call t => Pilot.call t
  | .finish => do
    if (← get).returns = [] then return .halt else leaveSubroutine "E:" "R:"
  | .unknown t => fail (.unknownCommand t)

end Courseware.Pilot
