/-!
The debugger: breakpoints, stepping, and the signals by which a host controls a program. Each
operation is one atomic change of this state.
-/

namespace Courseware

/-- What a host asks of a paused program. -/
inductive Signal where
  | resume
  | step
  | stop
deriving DecidableEq

inductive PauseReason where
  | breakpoint
  | step
deriving DecidableEq

structure Debugger where
  /-- Places of lines, in increasing order. -/
  breakpoints : List Nat := []
  stepMode : Bool := false
  /-- Pause before the next command whatever the step mode. -/
  breakNext : Bool := false
  pausedAt : Option Nat := none
  signal : Option Signal := none
  stopRequested : Bool := false
deriving DecidableEq

namespace Debugger

instance : Inhabited Debugger := ⟨{}⟩

def insertPlace (i : Nat) : List Nat → List Nat
  | [] => [i]
  | j :: r => if i < j then i :: j :: r else if i = j then j :: r else j :: insertPlace i r

/-- Sets a breakpoint, or removes it if it is set. -/
def toggle (d : Debugger) (i : Nat) : Debugger :=
  if i ∈ d.breakpoints then { d with breakpoints := d.breakpoints.filter (· ≠ i) }
  else { d with breakpoints := insertPlace i d.breakpoints }

def hasBreakpoint (d : Debugger) (i : Nat) : Bool := i ∈ d.breakpoints

def clearBreakpoints (d : Debugger) : Debugger := { d with breakpoints := [] }

def setStepMode (d : Debugger) (b : Bool) : Debugger := { d with stepMode := b }

/-- Lets a paused program execute one command; a free one is paused before its next. -/
def step (d : Debugger) : Debugger :=
  if d.pausedAt.isSome then { d with signal := some .step } else { d with breakNext := true }

/-- Lets a paused program go on. -/
def resume (d : Debugger) : Debugger :=
  if d.pausedAt.isSome then { d with signal := some .resume } else d

/-- Ends the program before its next command. -/
def stop (d : Debugger) : Debugger :=
  { d with
    stopRequested := true
    signal := if d.pausedAt.isSome then some .stop else d.signal }

/-- Whether to pause before the line at `i`, and why. -/
def pauseReason (d : Debugger) (i : Nat) : Option PauseReason × Debugger :=
  if d.hasBreakpoint i then (some .breakpoint, { d with breakNext := false })
  else if d.stepMode || d.breakNext then (some .step, { d with breakNext := false })
  else (none, d)

def beginPause (d : Debugger) (i : Nat) : Debugger :=
  { d with pausedAt := some i, signal := none }

/-- Looks once for a signal, which ends the pause. A request to stop comes first. -/
def poll (d : Debugger) : Option (Signal × Debugger) :=
  if d.stopRequested then some (.stop, { d with pausedAt := none })
  else d.signal.map fun s => (s, { d with signal := none, pausedAt := none })

def endPause (d : Debugger) : Debugger := { d with pausedAt := none, signal := none }

def requestBreak (d : Debugger) : Debugger := { d with breakNext := true }

/-- Consumes a request to stop. -/
def takeStop (d : Debugger) : Bool × Debugger :=
  (d.stopRequested, { d with stopRequested := false })

/-- Forgets what belongs to one run; breakpoints and step mode stay. -/
def resetRun (d : Debugger) : Debugger :=
  { d with breakNext := false, pausedAt := none, signal := none, stopRequested := false }

/-- What a host may do at any time. -/
inductive Action where
  | toggle (i : Nat)
  | clearBreakpoints
  | setStepMode (b : Bool)
  | step
  | resume
  | stop
  | nothing
deriving DecidableEq

def perform (d : Debugger) : Action → Debugger
  | .toggle i => d.toggle i
  | .clearBreakpoints => d.clearBreakpoints
  | .setStepMode b => d.setStepMode b
  | .step => d.step
  | .resume => d.resume
  | .stop => d.stop
  | .nothing => d

end Debugger

end Courseware
