import Courseware.Expr.Error
import Courseware.Host

/-!
Why a command fails, which failures end the program, and the words for them.
-/

namespace Courseware

open Courseware.Expr

/-- Commands that are used in a wrong way. -/
inductive Misuse where
  | noLabel
  | notAssignment (got : Text)
  | notLooseAssignment (got : Text)
  | noRequest
  | inputVariables
  | inputVariable
  | noTarget
  | unbalancedIf
  | noThen
  | noReadVariable
  | seed (v : Value)
  | swapVariables
  | paletteNumber
  | strayBlock
  | blockInput (verb : Text)
  | missingInput (verb : Text)
  | bothQuotes (t : Text)
  | paletteIndex
  | noVariableName
  | noRepeatBlock
  | noIfBlock
  | unbalancedOpen
  | unbalancedClose

inductive ExecError where
  | unknownCommand (t : Text)
  | eval (e : EvalError) (fatal : Bool)
  | undefinedLabel (t : Text)
  | stackUnderflow (command expected : String)
  | recursionLimit (name : Text) (limit : Nat)
  | runaway (limit : Nat)
  | noInput (name : Text)
  | outOfData
  | host (e : HostError)
  | misuse (m : Misuse)

def Misuse.message : Misuse → String
  | noLabel => "jump needs a label"
  | notAssignment t => s!"expected `name=value`, got `{Text.str t}`"
  | notLooseAssignment t => s!"expected `name = value`, got `{Text.str t}`"
  | noRequest => "R: needs a label or a runtime command"
  | inputVariables => "INPUT needs one variable"
  | inputVariable => "INPUT needs a variable"
  | noTarget => "missing jump target"
  | unbalancedIf => "unbalanced `[` in IF"
  | noThen => "IF needs THEN"
  | noReadVariable => "READ needs a variable"
  | seed v => s!"RANDOMIZE needs a number, got `{shown v}`"
  | swapVariables => "SWAP needs two variables"
  | paletteNumber => "COLOR needs a palette index"
  | strayBlock => "unexpected `[` block"
  | blockInput v => s!"{Text.str (Text.upper v)} does not take a [ ... ] block"
  | missingInput v => s!"{Text.str (Text.upper v)} needs more inputs"
  | bothQuotes t => s!"text `{Text.str t}` contains both quote characters"
  | paletteIndex => "palette index must be a whole number"
  | noVariableName => "MAKE needs a variable name"
  | noRepeatBlock => "REPEAT needs a [ ... ] block"
  | noIfBlock => "IF needs a [ ... ] block"
  | unbalancedOpen => "unbalanced `[`"
  | unbalancedClose => "unbalanced `]`"

namespace ExecError

def message : ExecError → String
  | unknownCommand t => s!"unknown command `{Text.str t}`"
  | eval e _ => e.message
  | undefinedLabel t => s!"undefined label `{Text.str t}`"
  | stackUnderflow command expected => s!"{command} without matching {expected}"
  | recursionLimit n limit =>
    s!"procedure `{Text.str n}` exceeded the call depth limit of {limit}"
  | runaway limit => s!"program exceeded the limit of {limit} executed commands"
  | noInput n => s!"no input available for `{Text.str n}`"
  | outOfData => "READ past the end of DATA"
  | host e => s!"runtime command failed: {e.message}"
  | misuse m => m.message

/-- A fatal failure ends the program; after any other it goes on with the next line. -/
def isFatal : ExecError → Bool
  | eval _ fatal => fatal
  | undefinedLabel _ => true
  | stackUnderflow .. => true
  | recursionLimit .. => true
  | runaway _ => true
  | unknownCommand _ => false
  | noInput _ => false
  | outOfData => false
  | host _ => false
  | misuse _ => false

/-- Makes a failed expression fatal. -/
def toFatal : ExecError → ExecError
  | eval e _ => eval e true
  | e => e

end ExecError

end Courseware
