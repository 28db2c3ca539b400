import Courseware.Engine.Loop

/-!
What a host does with an engine.
-/

namespace Courseware.Engine

/-- Runs the program from its first line, with the host's answers to pauses. -/
def drive (e : Engine) (answers : List Debugger.Action) : Outcome × Engine :=
  match e.settings.suspend with
  | .yield => e.start.go .yield
  | .block => e.start.go (.block answers)

/-- Runs the program from its first line. -/
def run (e : Engine) : Outcome × Engine := e.drive []

/-- Goes on after a pause. -/
def resume (e : Engine) : Outcome × Engine :=
  if e.running then
    match e.debugger.pausedAt with
    | some i => { e.setDebugger e.debugger.endPause with resumeAt := some i }.go .yield
    | none => e.go .yield
  else (.idle, e)

/-- Executes one line and pauses before the next; begins with the first line of a program that
is not running. -/
def step (e : Engine) : Outcome × Engine :=
  let e := if e.running then e else e.start
  let i := e.debugger.pausedAt.getD e.index
  { e.setDebugger e.debugger.endPause.requestBreak with resumeAt := some i }.go .yield

/-- Ends a program that has paused, and one that runs before its next line. -/
def stop (e : Engine) : Outcome × Engine :=
  let e := e.setDebugger e.debugger.stop
  if e.running && e.debugger.pausedAt.isSome then
    (e.setDebugger e.debugger.takeStop.2).finishStopped
  else (.idle, e)

/-- Performs an action on the debugger. -/
def perform (e : Engine) (a : Debugger.Action) : Engine := e.setDebugger (e.debugger.perform a)

def setVariable (e : Engine) (name : Text) (v : Value) : Engine :=
  { e with machine := e.machine.setVariable name v }

def valueOf? (e : Engine) (name : Text) : Option Value := e.machine.vars.value? name

/-- Subscribes to a channel and tells the number of the subscription. -/
def subscribe (e : Engine) (c : Channel) (react : Nat → Event → Reaction) : Nat × Engine :=
  let (id, bus) := e.machine.bus.subscribe c react
  (id, { e with machine := { e.machine with bus := bus } })

def unsubscribe (e : Engine) (id : Nat) : Bool × Engine :=
  let (found, bus) := e.machine.bus.unsubscribe id
  (found, { e with machine := { e.machine with bus := bus } })

def setInput (e : Engine) (s : InputSource) : Engine :=
  { e with machine := { e.machine with host := e.machine.host.setInput s } }

def register (e : Engine) (subsystem : Text) (c : RuntimeChannel) : Engine :=
  { e with machine := { e.machine with host := e.machine.host.register subsystem c } }

end Courseware.Engine
