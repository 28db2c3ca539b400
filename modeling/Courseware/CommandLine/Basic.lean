import Courseware.CommandLine.Files
import Courseware.CommandLine.Options
import Courseware.Engine.Session
import Courseware.Settings.EnvFile
import Courseware.Snapshot

/-!
What the command line does: it runs a program, or checks that it loads. Everything that it
reads is given to it, and what it writes is its result.
-/

namespace Courseware

namespace Engine

/-- Goes on after every pause. -/
def resumeAll : (pauses : Nat) → Outcome × Engine → Outcome × Engine
  | n + 1, (.paused _, e) => resumeAll n e.resume
  | _, r => r

/-- Runs a program to its end. Between two pauses a command is executed, so there are no more
pauses than commands. -/
def runThrough (e : Engine) : Outcome × Engine := resumeAll (e.settings.maxCommands + 1) e.run

end Engine

namespace CommandLine

open Text

structure Result where
  exit : Nat := 0
  out : Text := []
  err : Text := []

/-- A failure, with what has been written before it. -/
def failed (message : String) (out err : Text) : Result :=
  ⟨1, out, err ++ "Error: ".toList ++ message.toList ++ ['\n']⟩

/-- What the arguments may look like. -/
def usage : Text :=
  ("Usage: timewarp [--config PATH] run FILE [-b INDEX] [-i LINE] [--max-iterations N] " ++
    "[--dump-state]\n       timewarp [--config PATH] check FILE\n").toList

def usageError : Result := { exit := 2, err := usage }

/-- The text of the settings document. A document that is asked for must be there; the name
may leave out the ending. -/
def settingsText (files : Files) : Option Text → Except SettingsError Text
  | none =>
    match files "timewarp".toList, files "timewarp.toml".toList with
    | .error _, .ok t => .ok t
    | _, _ => .ok []
  | some path =>
    match files path with
    | .ok t =>
      match stripPrefix? "lmot.".toList path.reverse with
      | some (c :: _) => if c = '/' then .error .unreadable else .ok t
      | _ => .error .unreadable
    | .error _ =>
      match files (path ++ ".toml".toList) with
      | .ok t => .ok t
      | .error _ => .error .unreadable

/-- The environment with the variables of the file for them. -/
def environment (files : Files) (env : Ambient) : Ambient :=
  match files ".env".toList with
  | .ok t => EnvFile.load env (lines t)
  | .error _ => env

def settings (files : Files) (env : Ambient) (config : Option Text) :
    Except SettingsError Settings := do
  Settings.ofLayers (← settingsText files config) (environment files env)

/-- The lines of the standard input, without carriage returns at their ends. -/
def inputLines (t : Text) : List Text :=
  let ps := pieces (· == '\n') t
  let ps := if ps.getLast? = some [] then ps.dropLast else ps
  ps.map fun p => (p.reverse.dropWhile (· == '\r')).reverse

/-- What has been written so far, the latest first. -/
structure Console where
  out : List Text := []
  err : List Text := []
  /-- How many lines of input are still given in advance, which are not asked for. -/
  scripted : Nat

def Console.write (p : Program) (c : Console) : Entry → Console
  | .event (.text t) _ => { c with out := ['\n'] :: t :: c.out }
  | .event (.lineError _ line message fatal) _ =>
    let kind := if fatal then "error" else "warning"
    { c with err := s!"line {line}: {kind}: {message}\n".toList :: c.err }
  | .event (.breakpointHit i) _ =>
    let line :=
      match p.line? i with
      | some l => l.sourceLine
      | none => i + 1
    { c with err := s!"-- breakpoint at line {line} (index {i})\n".toList :: c.err }
  | .prompt t =>
    if 0 < c.scripted then { c with scripted := c.scripted - 1 } else { c with out := t :: c.out }
  | _ => c

def runProgram (r : RandomSource) (s : Settings) (o : Options) (file source stdin : Text) :
    Result :=
  let s := { s with maxCommands := o.maxCommands.getD s.maxCommands, suspend := .yield }
  match (Engine.new r s).load source with
  | .error e => failed s!"Failed to load {str file}: {e.message}" [] []
  | .ok e =>
    let e := e.setInput (.ofLines (o.inputs ++ inputLines stdin))
    let e := o.breakpoints.eraseDups.foldl (fun e i => e.perform (.toggle i)) e
    let (outcome, e) := e.runThrough
    let c := e.machine.log.foldl (Console.write e.program) { scripted := o.inputs.length }
    let out := c.out.reverse.flatten ++ (if o.dumpState then e.snapshot ++ ['\n'] else [])
    let err := c.err.reverse.flatten
    match outcome with
    | .completed 0 => ⟨0, out, err⟩
    | .completed n => ⟨0, out, err ++ s!"Finished with {n} failed command(s)\n".toList⟩
    | .idle => ⟨0, out, err⟩
    | .halted error => failed s!"Program halted: {error.message}" out err
    | .stopped => failed "Program stopped" out err
    | .paused i => failed s!"Program left paused at line index {i}" out err

def checkProgram (file source : Text) : Result :=
  match Program.load source with
  | .error e => failed s!"Failed to load {str file}: {e.message}" [] []
  | .ok p =>
    { out := (s!"✓ {str file}\n  Lines: {p.size}\n  Labels: {p.labels.size}\n" ++
        s!"  Procedures: {p.procedures.size}\n  DATA items: {p.data.length}\n").toList }

/-- Settings are read before the program, so that their errors come first. -/
def perform (files : Files) (env : Ambient) (stdin : Text) (r : RandomSource) (i : Invocation) :
    Result :=
  match settings files env i.options.config with
  | .error e => failed e.message [] []
  | .ok s =>
    match files i.file with
    | .error e => failed s!"Failed to read {str i.file}: {e.message}" [] []
    | .ok source =>
      match i.task with
      | .run => runProgram r s i.options i.file source stdin
      | .check => checkProgram i.file source

/-- The result of running the command line. -/
def run (files : Files) (env : Ambient) (args : List Text) (stdin : Text) (r : RandomSource) :
    Result :=
  match Invocation.read? none args with
  | none => usageError
  | some i => perform files env stdin r i

end CommandLine

end Courseware
