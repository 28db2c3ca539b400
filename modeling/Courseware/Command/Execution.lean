import Courseware.Basic.Execution
import Courseware.Command.Basic
import Courseware.Logo.Execution
import Courseware.Pilot.Execution

/-!
Executing commands of all three languages.
-/

namespace Courseware

open Exec

/-- Executes a command, given how a line of a procedure is executed. -/
def Command.run (enter : Text → Exec Directive) : Command → Exec Directive
  | .pilot c => c.run
  | .basic s => s.run
  | .logo line => Logo.runAll enter line false
  | .skip => return .next
  | .jumpTo number => do return .jump (← target number)
  | .nested c => do
    charge
    c.run enter
  | .ifThen condition yes no => do
    if ← Exec.condition condition then yes.run enter else no.run enter
  | .ifBlock condition body => do
    let t ← Logo.expanded condition
    match body with
    | none => misused .unbalancedIf
    | some ss => if ← Exec.condition t then Logo.runAll enter ss true else return .next
  | .unknown t => fail (.unknownCommand t)

/-- Executes the text of a command, where procedures may be called to a depth of `room`.
Nothing is entered below that, since calls are refused there. -/
def execute : (room : Nat) → Text → Exec Directive
  | 0, t => do (Command.read (← program) t).run fun u => fail (.unknownCommand u)
  | room + 1, t => do (Command.read (← program) t).run (execute room)

end Courseware
