import Courseware.Table
import Courseware.Text.Escape
import Courseware.Value

/-!
The host of a program: where input comes from, and who answers runtime requests. A source of
input and a runtime channel may answer by what they were asked before.
-/

namespace Courseware

open Text

/-- A request to a subsystem of the host. -/
structure Request where
  subsystem : Text
  verb : Text
  args : List Text
deriving DecidableEq

inductive HostError where
  | unknownSubsystem (name : Text)
  | failed (subsystem verb message : Text)
deriving DecidableEq

def HostError.message : HostError → String
  | unknownSubsystem n => s!"no runtime registered for subsystem `{Text.str n}`"
  | failed s v m => s!"{Text.str s} {Text.str v}: {Text.str m}"

namespace Request

/-- The words of a text, where `current` is the word being read. White space inside double
quotes belongs to the word; the quotes do not. -/
def splitQuoted (quoted : Bool) (current : Text) : Text → List Text
  | [] => if current = [] then [] else [current.reverse]
  | c :: t =>
    if c = '"' then splitQuoted (!quoted) current t
    else if isBlank c ∧ !quoted then
      if current = [] then splitQuoted false [] t else current.reverse :: splitQuoted false [] t
    else splitQuoted quoted (c :: current) t

/-- Reads `SUBSYSTEM VERB ARGS`; the verb may be missing. -/
def parse? (t : Text) : Option Request :=
  match splitQuoted false [] t with
  | [] => none
  | [s] => some ⟨upper s, [], []⟩
  | s :: v :: args => some ⟨upper s, upper v, args⟩

end Request

/-- A source of input. -/
structure InputSource where
  /-- The answer to a prompt, given the earlier prompts, latest first. -/
  answer : List Text → Text → Option Text
  asked : List Text := []

/-- Lines given one after the other, whatever the prompt. -/
def InputSource.ofLines (lines : List Text) : InputSource :=
  { answer := fun asked _ => lines[asked.length]? }

/-- One subsystem of the host. -/
structure RuntimeChannel where
  /-- The answer to a request, given the earlier requests, latest first. -/
  answer : List Request → Request → Except HostError Value
  asked : List Request := []

structure Host where
  input : Option InputSource := none
  channels : Table RuntimeChannel := {}

namespace Host

instance : Inhabited Host := ⟨{}⟩

def setInput (h : Host) (s : InputSource) : Host := { h with input := some s }

/-- Asks for a line of input. -/
def readLine (h : Host) (prompt : Text) : Option Text × Host :=
  match h.input with
  | none => (none, h)
  | some s =>
    (s.answer s.asked prompt,
      { h with input := some { s with asked := prompt :: s.asked } })

def register (h : Host) (subsystem : Text) (c : RuntimeChannel) : Host :=
  { h with channels := h.channels.insert (upper subsystem) c }

def hasSubsystem (h : Host) (subsystem : Text) : Bool := h.channels.contains (upper subsystem)

/-- Passes a request on to its subsystem. -/
def call (h : Host) (r : Request) : Except HostError Value × Host :=
  match h.channels.get? r.subsystem with
  | none => (.error (.unknownSubsystem r.subsystem), h)
  | some c =>
    (c.answer c.asked r,
      { h with channels := h.channels.insert r.subsystem { c with asked := r :: c.asked } })

/-- Whether there is input, and the names of the subsystems. -/
def describe (h : Host) : String :=
  let names := h.channels.keys.map fun n => Text.str (doubleQuoted n)
  "Host \x7b input: " ++ (if h.input.isSome then "true" else "false") ++ ", subsystems: [" ++
    ", ".intercalate names ++ "] \x7d"

end Host

end Courseware
