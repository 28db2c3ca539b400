import Courseware.CommandLine.Basic

/-!
The program that is run from the command line: it reads files, variables of the environment
and the standard input, and writes what the command line gives as its result.
-/

namespace Courseware.CommandLine

/-- The contents of a file, or why it cannot be read. -/
def readPath (path : Text) : IO (Except FileError Text) := do
  try
    return .ok (← IO.FS.readFile (Text.str path)).toList
  catch
    | .noFileOrDirectory .. => return .error .missing
    | .inappropriateType .. => return .error .directory
    | _ => return .error .notText

/-- The files at the given paths; there are no others. -/
def readPaths (paths : List Text) : IO Files := do
  let found ← paths.mapM fun p => do return (p, ← readPath p)
  return fun p => (found.lookup p).getD (.error .missing)

/-- The variables of the environment that settings are read from. -/
def readEnvironment : IO Ambient := do
  let names := ["MAX_ITERATIONS", "MAX_CALL_DEPTH", "EVAL__MAX_TOKENS", "EVAL__MAX_DEPTH",
    "SUSPEND_MODE", "RNG_SEED"]
  names.filterMapM fun n => do
    let name := "TIMEWARP_" ++ n
    return (← IO.getEnv name).map fun v => (name.toList, v.toList)

/-- The paths that an invocation may read. -/
def paths (i : Invocation) : List Text :=
  [".env".toList, "timewarp".toList, "timewarp.toml".toList, i.file] ++
    match i.options.config with
    | some c => [c, c ++ ".toml".toList]
    | none => []

/-- Random numbers that begin with what the system supplies. -/
def readSource : IO RandomSource := do
  let bytes ← IO.getRandomBytes 8
  return .counting (bytes.foldl (fun n b => n <<< 8 ||| b.toUInt64) 0)

/-- Carries out an invocation. Only a program that is run has an input. -/
def carryOut (i : Invocation) : IO Result := do
  let files ← readPaths (paths i)
  let env ← readEnvironment
  let stdin ← match i.task with
    | .run => (← IO.getStdin).readToEnd
    | .check => pure ""
  return perform files env stdin.toList (← readSource) i

end Courseware.CommandLine

open Courseware CommandLine in
def main (args : List String) : IO UInt32 := do
  let r ← match Invocation.read? none (args.map String.toList) with
    | some i => carryOut i
    | none => pure usageError
  IO.print (Text.str r.out)
  IO.eprint (Text.str r.err)
  return r.exit.toUInt32
