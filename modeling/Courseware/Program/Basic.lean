import Courseware.Table
import Courseware.Value

/-!
A program: its lines, and where the labels, line numbers, procedures and data of the lines
are to be found.
-/

namespace Courseware

/-- A line to be executed. -/
structure Line where
  /-- The place in the source text, counted from one. -/
  sourceLine : Nat
  /-- The number that the line begins with. -/
  number : Option Nat
  /-- The command, without the number and without white space at its ends. -/
  text : Text
deriving DecidableEq

/-- A procedure, from its `TO` line to its `END` line. -/
structure Procedure where
  name : Text
  params : List Text
  body : List Text
  start : Nat
  /-- The place of the `END` line, or of the last line if there is none. -/
  finish : Nat
deriving DecidableEq

structure Program where
  lines : List Line := []
  labels : Table Nat := {}
  /-- Line numbers in increasing order, with the places they lead to. -/
  numbers : List (Nat × Nat) := []
  procedures : Table Procedure := {}
  data : List Value := []

namespace Program

instance : Inhabited Program := ⟨{}⟩

def size (p : Program) : Nat := p.lines.length

def line? (p : Program) (i : Nat) : Option Line := p.lines[i]?

def label? (p : Program) (name : Text) : Option Nat := p.labels.get? (Text.canonical name)

def number? (p : Program) (n : Nat) : Option Nat := p.numbers.lookup n

def procedure? (p : Program) (name : Text) : Option Procedure :=
  p.procedures.get? (Text.canonical name)

/-- Reads a line number: digits after an optional plus sign, of at most 32 bits. -/
def readLineNumber? (t : Text) : Option Nat :=
  match Number.readNat? t with
  | some n => if n < UInt32.size then some n else none
  | none => none

/-- The place that a jump leads to. What reads as a line number is never a label. -/
def target? (p : Program) (t : Text) : Option Nat :=
  match readLineNumber? (Text.trim t) with
  | some n => p.number? n
  | none => p.label? t

end Program

end Courseware
