import Courseware.Settings.Reading
import Courseware.Text.Blank
import Courseware.Text.Letter

/-!
A file of variables for the environment, one `NAME=VALUE` a line. A value may be quoted, may be
followed by a comment, and may refer to other variables as `$NAME` or with braces. The file
never changes a variable that is there already, and a malformed line ends it.
-/

namespace Courseware.EnvFile

open Text

/-- Where in a value a reader is; `quoted` says whether it is in double quotes. -/
inductive Mode where
  | bare
  | single
  | double
  | escaped (quoted : Bool)
  | reference (quoted : Bool) (name : Text)
  | braced (quoted : Bool) (name : Text)
  /-- After white space, where only a comment may follow. -/
  | ending

/-- The mode outside of escapes and references. -/
def base (quoted : Bool) : Mode := if quoted then .double else .bare

def escape? (c : Char) : Option Char :=
  if c == '\\' || c == '\'' || c == '"' || c == '$' || c == ' ' then some c
  else if c == 'n' then some '\n'
  else none

def valueOf (env : Ambient) (name : Text) : Text := (env.lookup name).getD []

/-- Reads a value, given the variables that it may refer to. The character that ends a reference
belongs to the value, whatever it is. -/
def readValue? (env : Ambient) : Mode → Text → Option Text
  | .bare, [] => some []
  | .escaped false, [] => some []
  | .ending, [] => some []
  | .reference false name, [] => some (valueOf env name)
  | _, [] => none
  | .ending, c :: r =>
    if c == ' ' || c == '\t' then readValue? env .ending r
    else if c == '#' then some []
    else none
  | .escaped q, c :: r => do
    let e ← escape? c
    return e :: (← readValue? env (base q) r)
  | .single, c :: r =>
    if c == '\'' then readValue? env .bare r else (readValue? env .single r).map (c :: ·)
  | .reference q name, c :: r =>
    if isAlphanumeric c then readValue? env (.reference q (name ++ [c])) r
    else if c == '\x7b' && name.isEmpty then readValue? env (.braced q []) r
    else if c == '$' then (readValue? env (.reference q []) r).map (valueOf env name ++ ·)
    else (readValue? env (base q) r).map (valueOf env name ++ c :: ·)
  | .braced q name, c :: r =>
    if c == '\x7d' then (readValue? env (base q) r).map (valueOf env name ++ ·)
    else readValue? env (.braced q (name ++ [c])) r
  | .double, c :: r =>
    if c == '$' then readValue? env (.reference true []) r
    else if c == '"' then readValue? env .bare r
    else if c == '\\' then readValue? env (.escaped true) r
    else (readValue? env .double r).map (c :: ·)
  | .bare, c :: r =>
    if c == '$' then readValue? env (.reference false []) r
    else if c == '\'' then readValue? env .single r
    else if c == '"' then readValue? env .double r
    else if c == '\\' then readValue? env (.escaped false) r
    else if c == ' ' || c == '\t' then readValue? env .ending r
    else (readValue? env .bare r).map (c :: ·)

def isNameChar (c : Char) : Bool := c.isAlphanum || c == '_' || c == '.'

/-- A name, and what follows it and white space. -/
def readName? (t : Text) : Option (Text × Text) :=
  if t.head?.any fun c => c.isAlpha || c == '_' then
    some (t.takeWhile isNameChar, trimStart (t.dropWhile isNameChar))
  else none

/-- The name and the text of the value; the word `export` may stand in front. -/
def readAssignment? (t : Text) : Option (Text × Text) := do
  let (name, r) ← readName? t
  match r with
  | '=' :: value => some (name, trimStart value)
  | _ =>
    if name = "export".toList then
      match ← readName? r with
      | (name, '=' :: value) => some (name, trimStart value)
      | _ => none
    else none

/-- The environment with the variables of the given lines. -/
def load (env : Ambient) : List Text → Ambient
  | [] => env
  | line :: rest =>
    let t := trimStart line
    if t = [] ∨ t.head? = some '#' then load env rest
    else
      match readAssignment? t with
      | none => env
      | some (name, value) =>
        let v := if value.head? = some '#' then some [] else readValue? env .bare value
        match v with
        | none => env
        | some v => load (if (env.lookup name).isSome then env else env ++ [(name, v)]) rest

end Courseware.EnvFile
