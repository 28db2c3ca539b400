import Courseware.Number.Decimal
import Courseware.Text.Basic

/-!
The arguments of the command line: a task, a file and options. An option takes its value from
the same argument or from the next one, which must not look like an option itself.
-/

namespace Courseware.CommandLine

/-- How an argument looks. -/
inductive Arg where
  | plain (t : Text)
  /-- After this argument there are no options. -/
  | separator
  | long (name : Text) (value : Option Text)
  | short (letter : Char) (value : Option Text)

namespace Arg

def ofText : Text → Arg
  | ['-', '-'] => separator
  | '-' :: '-' :: t =>
    match Text.cut? '=' t with
    | some (name, value) => long name (some value)
    | none => long t none
  | ['-', c] => short c none
  | '-' :: c :: '=' :: t => short c (some t)
  | '-' :: c :: t => short c (some t)
  | t => plain t

def isPlain : Arg → Bool
  | plain _ => true
  | _ => false

end Arg

inductive Task where
  | run
  | check
deriving DecidableEq

structure Options where
  /-- The file with the settings. -/
  config : Option Text := none
  /-- The file with the program. -/
  file : Option Text := none
  breakpoints : List Nat := []
  /-- Lines of input, used before others. -/
  inputs : List Text := []
  maxCommands : Option Nat := none
  dumpState : Bool := false

namespace Options

def setConfig? (o : Options) (v : Text) : Option Options :=
  if o.config.isSome ∨ v = [] then none else some { o with config := some v }

def setFile? (o : Options) (v : Text) : Option Options :=
  if o.file.isSome ∨ v = [] then none else some { o with file := some v }

/-- Reads a whole number of at most 64 bits. -/
def readCount? (t : Text) : Option Nat := (Number.readNat? t).filter (· < UInt64.size)

def addBreakpoint? (o : Options) (v : Text) : Option Options :=
  (readCount? v).map fun n => { o with breakpoints := o.breakpoints ++ [n] }

def addInput? (o : Options) (v : Text) : Option Options :=
  some { o with inputs := o.inputs ++ [v] }

def setMaxCommands? (o : Options) (v : Text) : Option Options :=
  if o.maxCommands.isSome then none
  else (readCount? v).map fun n => { o with maxCommands := some n }

def setDumpState? (o : Options) : Option Options :=
  if o.dumpState then none else some { o with dumpState := true }

/-- What an option with a value does, and the value if it stands in the same argument. -/
def setter? (task : Task) : Arg → Option ((Options → Text → Option Options) × Option Text)
  | .long name v =>
    if name = "config".toList then some (setConfig?, v)
    else if task ≠ .run then none
    else if name = "breakpoint".toList then some (addBreakpoint?, v)
    else if name = "input".toList then some (addInput?, v)
    else if name = "max-iterations".toList then some (setMaxCommands?, v)
    else none
  | .short letter v =>
    if task ≠ .run then none
    else if letter = 'b' then some (addBreakpoint?, v)
    else if letter = 'i' then some (addInput?, v)
    else none
  | _ => none

/-- Reads the arguments that follow a task. -/
def read? (task : Task) (o : Options) : List Text → Option Options
  | [] => some o
  | a :: rest =>
    match Arg.ofText a with
    | .separator => rest.foldlM setFile? o
    | .plain t => (o.setFile? t).bind fun o => read? task o rest
    | arg =>
      if task = .run ∧ a = "--dump-state".toList then
        o.setDumpState?.bind fun o => read? task o rest
      else
        match setter? task arg with
        | none => none
        | some (set, some v) => (set o v).bind fun o => read? task o rest
        | some (set, none) =>
          match rest with
          | [] => none
          | v :: rest =>
            if (Arg.ofText v).isPlain then (set o v).bind fun o => read? task o rest else none

end Options

/-- What the command line asks for. -/
structure Invocation where
  task : Task
  file : Text
  options : Options

namespace Invocation

def task? (t : Text) : Option Task :=
  if t = "run".toList then some .run
  else if t = "check".toList then some .check
  else none

/-- Reads arguments. The settings file may be named before the task and after it, where the
latter counts. -/
def read? (config : Option Text) : List Text → Option Invocation
  | [] => none
  | a :: rest =>
    match Arg.ofText a with
    | .plain t => do
      let task ← task? t
      let o ← Options.read? task {} rest
      let file ← o.file
      return ⟨task, file, { o with config := o.config.or config }⟩
    | .long name v =>
      if name ≠ "config".toList ∨ config.isSome then none
      else
        match v with
        | some v => if v = [] then none else read? (some v) rest
        | none =>
          match rest with
          | [] => none
          | v :: rest =>
            if v ≠ [] ∧ (Arg.ofText v).isPlain then read? (some v) rest else none
    | _ => none

end Invocation

end Courseware.CommandLine
