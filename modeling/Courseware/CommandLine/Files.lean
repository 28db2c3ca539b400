import Courseware.Text.Basic

/-!
Files as the command line sees them.
-/

namespace Courseware.CommandLine

inductive FileError where
  | missing
  | directory
  | notDirectory
  | notText
deriving DecidableEq

def FileError.message : FileError → String
  | missing => "No such file or directory (os error 2)"
  | directory => "Is a directory (os error 21)"
  | notDirectory => "Not a directory (os error 20)"
  | notText => "stream did not contain valid UTF-8"

/-- The contents of the file at a path. -/
abbrev Files := Text → Except FileError Text

namespace Files

/-- The steps of a path. -/
def steps (path : Text) : List Text :=
  (Text.pieces (· == '/') path).filter fun s => s ≠ [] && s ≠ ['.']

/-- Whether a path can only be that of a directory. -/
def endsInDirectory (path : Text) : Bool :=
  match (Text.pieces (· == '/') path).getLast? with
  | some last => last == [] || last == ['.']
  | none => true

/-- The files of a directory in which they are listed by name. -/
def ofList (entries : List (Text × Text)) : Files := fun path =>
  let path' := steps path
  if path.head? = some '/' then .error .missing
  else if path' = [] then .error .directory
  else
    match entries.find? fun e => steps e.1 = path' with
    | some (_, contents) => if endsInDirectory path then .error .notDirectory else .ok contents
    | none =>
      if entries.any fun e => path'.isPrefixOf (steps e.1) then .error .directory
      else if entries.any fun e => (steps e.1).isPrefixOf path' then .error .notDirectory
      else .error .missing

end Files

end Courseware.CommandLine
