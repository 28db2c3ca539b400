import Courseware.Engine.Basic

/-!
The loop that runs a program, one line a round. Each round looks for a request to stop, for
the limit of commands and for the end of the program, may pause, and executes a line.
-/

namespace Courseware

/-- How a run takes a pause. -/
inductive Waiting where
  /-- It comes back to the host. -/
  | yield
  /-- It waits for a signal. The host gives one after the other of these answers until there is
  a signal, and then stops the program. -/
  | block (answers : List Debugger.Action)

/-- Waits for a signal: the signal, the answers left and the debugger after it. -/
def Debugger.await (d : Debugger) : List Debugger.Action → Signal × List Debugger.Action × Debugger
  | [] =>
    match d.poll with
    | some (s, d) => (s, [], d)
    | none => (.stop, [], { d.stop with pausedAt := none })
  | a :: as =>
    match d.poll with
    | some (s, d) => (s, a :: as, d)
    | none => (d.perform a).await as

namespace Engine

/-- What a round leads to. -/
inductive Round where
  | ended (result : Outcome × Engine)
  | again (w : Waiting) (e : Engine)

/-- Executes the line at the current place. -/
def runLine (w : Waiting) (line : Line) (e : Engine) : Round :=
  let index := e.index
  match { e with machine := { e.machine with used := e.machine.used + 1 } }.execute line.text with
  | (.ok .next, e) => .again w ({ e with index := index + 1 }.emit (.lineExecuted index))
  | (.ok (.jump i), e) => .again w ({ e with index := i }.emit (.lineExecuted index))
  | (.ok .halt, e) => .ended (e.emit (.lineExecuted index)).complete
  | (.ok .exit, e) => .ended (e.emit (.lineExecuted index)).complete
  | (.error error, e) =>
    let e := e.report error
    if error.isFatal then .ended (e.halt error)
    else .again w
      ({ e with errors := e.errors + 1, index := index + 1 }.emit (.lineExecuted index))

/-- Pauses at the current place. -/
def pause (w : Waiting) (reason : PauseReason) (e : Engine) : Round :=
  let e := e.setDebugger (e.debugger.beginPause e.index)
  let e :=
    match reason with
    | .breakpoint => e.emit (.breakpointHit e.index)
    | .step => e
  match w with
  | .yield => .ended (.paused e.index, e)
  | .block answers =>
    match e.debugger.await answers with
    | (.stop, _, d) => .ended (e.setDebugger d.takeStop.2).finishStopped
    | (.step, as, d) =>
      .again (.block as) { e.setDebugger d.requestBreak with resumeAt := some e.index }
    | (.resume, as, d) => .again (.block as) { e.setDebugger d with resumeAt := some e.index }

def round (w : Waiting) (e : Engine) : Round :=
  let (stop, d) := e.debugger.takeStop
  let e := e.setDebugger d
  if stop then .ended e.finishStopped
  else if !e.running then .ended (.idle, e)
  else if e.settings.maxCommands ≤ e.machine.used then
    let error := ExecError.runaway e.settings.maxCommands
    .ended ((e.report error).halt error)
  else
    match e.program.line? e.index with
    | none => .ended e.complete
    | some line =>
      let resuming := e.resumeAt = some e.index
      let e := { e with resumeAt := none }
      if resuming then e.runLine w line
      else
        match e.debugger.pauseReason e.index with
        | (none, d) => (e.setDebugger d).runLine w line
        | (some reason, d) => (e.setDebugger d).pause w reason

/-- How many rounds a run can take: every executed line counts as a command, and after a
pause a line is executed. -/
def roundsLeft (e : Engine) : Nat := 2 * (e.settings.maxCommands - e.machine.used) + 2

/-- Runs rounds until one of them ends the run. -/
def runRounds : (rounds : Nat) → Waiting → Engine → Outcome × Engine
  | 0, _, e => e.halt (.runaway e.settings.maxCommands)
  | n + 1, w, e =>
    match e.round w with
    | .ended result => result
    | .again w e => runRounds n w e

def go (w : Waiting) (e : Engine) : Outcome × Engine := runRounds e.roundsLeft w e

end Engine

end Courseware
