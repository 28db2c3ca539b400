import Courseware.Expr.Evaluation
import Courseware.Logo.Reference
import Courseware.Logo.Sentence
import Courseware.Machine.Basic

/-!
Executing the commands of Logo. How a line of a procedure is executed is a parameter, since
such a line may be of any of the three languages.
-/

namespace Courseware.Logo

open Text Exec

/-- An expression with its references replaced. -/
def expanded (t : Text) : Exec Text := do
  match expand (← get).vars t with
  | .ok u => return u
  | .error e => fail e

/-- The value of an expression that may hold references. -/
def resolve (t : Text) : Exec Value := do evaluate (← expanded t)

/-- An input that must be there. -/
def taken {α : Type} : Except Misuse α → Exec α
  | .ok a => return a
  | .error m => misused m

/-- The number that an input stands for; `verb` is named if it is none. -/
def number (verb : Text) (input : Except Misuse Text) : Exec Float := do
  let v ← resolve (← taken input)
  match v.toFloat? with
  | some x => return x
  | none => fail (.eval (.mismatch (.notNumber verb v)) false)

def numbers (verb : Text) : List (Except Misuse Text) → Exec (List Float)
  | [] => return []
  | i :: is => do
    let x ← number verb i
    return x :: (← numbers verb is)

/-- A color by its name or its number. -/
def color (input : Text) : Exec Unit := do
  let v ← match input with
    | ':' :: _ => resolve input
    | _ =>
      match literal? input with
      | some name => pure (.text name)
      | none => pure ((Value.readNumber? input).getD (.text input))
  match v with
  | .text name => draw (·.setColor (lower name))
  | v =>
    match v.toInteger? with
    | some n => draw (·.setColorIndex n)
    | none => misused .paletteIndex

/-- What `PRINT` writes for its input. -/
def printed : Arg → Exec Text
  | .block t => interpolate t
  | .expr e =>
    match literal? e with
    | some t => return t
    | none => do return (← resolve e).display

/-- What `MAKE` assigns. -/
def made : Arg → Exec Value
  | .block t => return .text (trim t)
  | .expr e =>
    match literal? e with
    | some t => return .text t
    | none => resolve e

/-- The value that a procedure gets for an input; a failed expression is fatal. -/
def argument (input : Except Misuse Text) : Exec Value := do
  let e ← taken input
  match literal? e with
  | some t => return .text t
  | none => fatally (resolve e)

def arguments : List (Except Misuse Text) → Exec (List Value)
  | [] => return []
  | i :: is => do
    let v ← argument i
    return v :: (← arguments is)

/-- The lines of a procedure with its arguments put in. -/
def substituteAll (args : List (Text × Value)) : List Text → Except Misuse (List Text)
  | [] => .ok []
  | line :: lines =>
    match substitute args line with
    | .error m => .error m
    | .ok t => (substituteAll args lines).map (t :: ·)

/-- Executes the lines of a procedure, each counted on its own. `STOP` ends the procedure. -/
def runBody (enter : Text → Exec Directive) : List Text → Exec Directive
  | [] => return .next
  | line :: lines => do
    charge
    if sameWord (trim line) "STOP".toList then return .next
    match ← enter line with
    | .next => runBody enter lines
    | .exit => return .next
    | d => return d

/-- Calls a procedure, unless calls are nested too deep already. -/
def call (enter : Text → Exec Directive) (p : Procedure) (inputs : List (Except Misuse Text)) :
    Exec Directive := do
  let args ← arguments inputs
  let limit := (← read).settings.maxCallDepth
  if limit < (← get).callDepth + 1 then fail (.recursionLimit p.name limit)
  let body ← taken (substituteAll (p.params.zip args) p.body)
  deeper (runBody enter body)

/-- Where the program goes on when it meets the definition of a procedure. -/
def skipDefinition (name : Option Text) : Exec Directive := do
  match name.bind (← program).procedure? with
  | some p => return .jump (p.finish + 1)
  | none => return .next

def Simple.run (enter : Text → Exec Directive) : Simple → Exec Directive
  | .motion verb m inputs => do
    let xs ← numbers verb inputs
    draw (m.apply xs)
    return .next
  | .gesture g => do
    draw g.apply
    return .next
  | .color input => do
    Logo.color input
    return .next
  | .print input => do
    Exec.print (← printed input)
    return .next
  | .make name input => do
    setVariable name (← made input)
    return .next
  | .stop => return .exit
  | .define name => skipDefinition name
  | .call _ p inputs => Logo.call enter p inputs
  | .unknown verb => fail (.unknownCommand verb)
  | .faulty m => misused m

/-- How often a block is repeated; a failed expression is fatal. -/
def repeatCount (t : Text) : Exec Nat := do
  let v ← fatally (do evaluate (← expanded t))
  match v.toFloat? with
  | none => fail (.eval (.mismatch (.notCount v)) true)
  | some x => return (Number.truncateWithin 0 (UInt64.size - 1) x).toNat

/-- Runs `pass` with the numbers from `i` on, `left` times or until it leads elsewhere. -/
def repeatFrom (pass : Nat → Exec Directive) : (left i : Nat) → Exec Directive
  | 0, _ => return .next
  | left + 1, i => do
    match ← pass i with
    | .next => repeatFrom pass left (i + 1)
    | d => return d

/-- Whether a command is counted before it runs. -/
def Sentence.isCounted : Sentence → Bool
  | .stray _ => false
  | _ => true

mutual

def Sentence.run (enter : Text → Exec Directive) : Sentence → Exec Directive
  | .simple s => s.run enter
  | .repeatBlock count body => do
    let n ← repeatCount count
    repeatFrom (fun i => do
      -- a pass over nothing counts as a command
      if body.isEmpty then charge
      setVariable "REPCOUNT".toList (.integer (Int64.ofNat i))
      runAll enter body true) n 1
  | .ifBlock condition body => do
    if (← resolve condition).truthy then runAll enter body true else return .next
  | .stray m => misused m

/-- Runs commands until one leads elsewhere. The first is not counted if it has been counted
as the line. -/
def runAll (enter : Text → Exec Directive) : List Sentence → (counted : Bool) → Exec Directive
  | [], _ => return .next
  | s :: rest, counted => do
    if counted && s.isCounted then charge
    match ← s.run enter with
    | .next => runAll enter rest true
    | d => return d

end

end Courseware.Logo
