import Courseware.Command.Error
import Courseware.Event.Bus
import Courseware.Expr.Evaluation
import Courseware.Program.Basic
import Courseware.Random
import Courseware.Settings.Basic
import Courseware.Turtle
import Courseware.Variables
import Courseware.Verdict

/-!
The state that commands change, and the monad in which they run. What a command has changed
before it fails stays changed.
-/

namespace Courseware

/-- Where the program goes on after a command. -/
inductive Directive where
  | next
  | jump (i : Nat)
  /-- The program ends. -/
  | halt
  /-- The innermost procedure ends, or the program outside of procedures. -/
  | exit
deriving DecidableEq

/-- A loop that has been entered. -/
structure Loop where
  var : Text
  limit : Value
  step : Value
  /-- The place of the first line of the body. -/
  body : Nat

/-- What is recorded of a run: events with the numbers of the subscribers told, and what the
host was asked. -/
inductive Entry where
  | event (e : Event) (receivers : List Nat)
  | prompt (t : Text)
  | request (r : Request)

structure Machine where
  vars : Variables := {}
  turtle : Turtle := {}
  /-- Places to return to, the latest first. -/
  returns : List Nat := []
  /-- Loops that have been entered, the innermost first. -/
  loops : List Loop := []
  verdict : Verdict := {}
  /-- How many items of data have been read. -/
  dataRead : Nat := 0
  random : Generator
  callDepth : Nat := 0
  /-- How many commands the run has executed. -/
  used : Nat := 0
  host : Host := {}
  bus : Bus := {}
  debugger : Debugger := {}
  log : Array Entry := #[]

namespace Machine

instance : Inhabited Machine := ⟨{ random := default }⟩

/-- What a reaction does to the debugger. -/
def react (d : Debugger) : Reaction → Debugger
  | .act a => d.perform a
  | _ => d

/-- Delivers and records an event. -/
def emit (m : Machine) (e : Event) : Machine :=
  let (reactions, bus) := m.bus.emit e
  { m with
    bus := bus
    debugger := reactions.foldl (fun d r => react d r.2) m.debugger
    log := m.log.push (.event e (reactions.map Prod.fst)) }

/-- Sets a variable, which is an event. -/
def setVariable (m : Machine) (name : Text) (v : Value) : Machine :=
  { m with vars := m.vars.set name v }.emit
    (.variableChanged (Text.canonical name) v)

end Machine

/-- What stays the same while a line is executed. -/
structure Environment where
  program : Program
  settings : Settings
  /-- The place of the line. -/
  index : Nat

abbrev Exec := ReaderT Environment (EStateM ExecError Machine)

namespace Exec

open Courseware.Expr

def fail {α : Type} (e : ExecError) : Exec α := fun _ m => .error e m

def misused {α : Type} (e : Misuse) : Exec α := fail (.misuse e)

/-- Counts one command, if the run may execute another. -/
def charge : Exec Unit := fun env m =>
  if env.settings.maxCommands ≤ m.used then .error (.runaway env.settings.maxCommands) m
  else .ok () { m with used := m.used + 1 }

/-- Makes every failed expression fatal. -/
def fatally {α : Type} (x : Exec α) : Exec α := fun env m =>
  match x env m with
  | .ok a m => .ok a m
  | .error e m => .error e.toFatal m

/-- The outcome of a computation with values. -/
def ofEval {α : Type} (x : Except EvalError α) : Exec α := fun _ m =>
  match x with
  | .ok a => .ok a m
  | .error e => .error (.eval e false) m

/-- The value of an expression. -/
def evaluate (t : Text) : Exec Value := fun env m =>
  match Expr.evaluate m.vars env.settings.limits t m.random with
  | .ok v g => .ok v { m with random := g }
  | .error e g => .error (.eval e false) { m with random := g }

/-- The truth of an expression. -/
def condition (t : Text) : Exec Bool := do return (← evaluate t).truthy

def setVariable (name : Text) (v : Value) : Exec Unit := fun _ m => .ok () (m.setVariable name v)

def print (t : Text) : Exec Unit := fun _ m => .ok () (m.emit (.text t))

def interpolate (t : Text) : Exec Text := do return (← get).vars.interpolate t

def program : Exec Program := do return (← read).program

/-- The value of a variable. -/
def valueOf? (name : Text) : Exec (Option Value) := do return (← get).vars.value? name

/-- The place of a label or line number. -/
def target (t : Text) : Exec Nat := do
  match (← program).target? t with
  | some i => return i
  | none => fail (.undefinedLabel (Text.trim t))

/-- Asks the host for a line of input. -/
def readLine (prompt : Text) : Exec (Option Text) := fun _ m =>
  let (line, host) := m.host.readLine prompt
  .ok line { m with
    host := host
    log := if m.host.input.isSome then m.log.push (.prompt prompt) else m.log }

/-- Passes a request on to the host. -/
def request (r : Request) : Exec Value := fun _ m =>
  let (answer, host) := m.host.call r
  let m := { m with
    host := host
    log := if m.host.channels.contains r.subsystem then m.log.push (.request r) else m.log }
  match answer with
  | .ok v => .ok v m
  | .error e => .error (.host e) m

/-- Changes the turtle. -/
def draw (f : Turtle → Turtle) : Exec Unit := modify fun m => { m with turtle := f m.turtle }

/-- Jumps to a subroutine, from which the program returns to the next line. -/
def enterSubroutine (i : Nat) : Exec Directive := do
  let index := (← read).index
  modify fun m => { m with returns := (index + 1) :: m.returns }
  return .jump i

/-- Returns from a subroutine. -/
def leaveSubroutine (command expected : String) : Exec Directive := do
  match (← get).returns with
  | [] => fail (.stackUnderflow command expected)
  | i :: rest =>
    modify fun m => { m with returns := rest }
    return .jump i

/-- Runs something one call deeper. -/
def deeper {α : Type} (x : Exec α) : Exec α := fun env m =>
  match x env { m with callDepth := m.callDepth + 1 } with
  | .ok a m => .ok a { m with callDepth := m.callDepth - 1 }
  | .error e m => .error e { m with callDepth := m.callDepth - 1 }

end Exec

end Courseware
