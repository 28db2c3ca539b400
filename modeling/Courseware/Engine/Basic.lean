import Courseware.Command.Execution
import Courseware.Program.Loading

/-!
The engine: a loaded program, the machine that it runs on, and where in the program it is.
-/

namespace Courseware

/-- Why a run came back to the host. -/
inductive Outcome where
  /-- The program came to its end; `errors` commands failed on the way. -/
  | completed (errors : Nat)
  | halted (e : ExecError)
  | stopped
  | paused (index : Nat)
  /-- There was nothing to do. -/
  | idle

def Outcome.isSuccess : Outcome → Bool
  | completed _ => true
  | _ => false

structure Engine where
  settings : Settings
  program : Program := {}
  machine : Machine
  /-- The place of the next line. -/
  index : Nat := 0
  running : Bool := false
  /-- How many commands of the run have failed. -/
  errors : Nat := 0
  /-- The place of a line at which the run has paused already. -/
  resumeAt : Option Nat := none

namespace Engine

/-- An engine without a program, with random numbers from a given source. -/
def new (r : RandomSource) (s : Settings) : Engine :=
  { settings := s, machine := { random := r.start s.seed } }

instance : Inhabited Engine := ⟨new default {}⟩

def debugger (e : Engine) : Debugger := e.machine.debugger

def setDebugger (e : Engine) (d : Debugger) : Engine :=
  { e with machine := { e.machine with debugger := d } }

def emit (e : Engine) (event : Event) : Engine := { e with machine := e.machine.emit event }

/-- Forgets the run, but neither the variables nor the turtle. -/
def clearRun (e : Engine) : Engine :=
  { e with
    machine := { e.machine with
      returns := []
      loops := []
      verdict := {}
      dataRead := 0
      used := 0
      debugger := e.machine.debugger.resetRun }
    index := 0
    running := false
    errors := 0
    resumeAt := none }

/-- Forgets everything that the program did. -/
def reset (e : Engine) : Engine :=
  let e := e.clearRun
  { e with
    machine := { e.machine with
      vars := {}
      turtle := {}
      random := e.machine.random.reseed e.settings.seed } }

/-- Puts a program in place of the one before. -/
def load (e : Engine) (source : Text) : Except LoadError Engine :=
  (Program.load source).map fun p => { e with program := p }.reset

/-- Begins with the first line. -/
def start (e : Engine) : Engine := { e.clearRun with running := true }.emit .programStarted

/-- Reports that a command has failed. -/
def report (e : Engine) (error : ExecError) : Engine :=
  let sourceLine :=
    match e.program.line? e.index with
    | some line => line.sourceLine
    | none => e.index + 1
  e.emit (.lineError e.index sourceLine error.message error.isFatal)

def complete (e : Engine) : Outcome × Engine :=
  (.completed e.errors, { e with running := false }.emit (.programFinished true))

def halt (e : Engine) (error : ExecError) : Outcome × Engine :=
  (.halted error, { e with running := false }.emit (.programFinished false))

def finishStopped (e : Engine) : Outcome × Engine :=
  (.stopped,
    ({ e with running := false }.setDebugger e.debugger.endPause).emit (.programFinished false))

/-- Executes a command at the current place and settles the verdict. -/
def execute (e : Engine) (t : Text) : Except ExecError Directive × Engine :=
  match Courseware.execute e.settings.maxCallDepth t ⟨e.program, e.settings, e.index⟩ e.machine with
  | .ok d m => (.ok d, { e with machine := { m with verdict := m.verdict.settle } })
  | .error error m => (.error error, { e with machine := { m with verdict := m.verdict.settle } })

end Engine

end Courseware
