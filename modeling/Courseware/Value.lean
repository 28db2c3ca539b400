import Courseware.Number.Layout
import Courseware.Number.Reading
import Courseware.Number.Word
import Courseware.Text.Blank

/-!
The values of programs: whole numbers, floats and texts, and how they turn into one another.
-/

namespace Courseware

inductive Value where
  | integer (n : Int64)
  | float (x : Float)
  | text (t : Text)

namespace Value

instance : Inhabited Value := ⟨integer 0⟩

/-- The result of a test, as a number. -/
def ofBool (b : Bool) : Value := integer (if b then 1 else 0)

/-- Numbers other than zero and texts other than the empty one count as true. -/
def truthy : Value → Bool
  | integer n => n != 0
  | float x => x != 0
  | text t => t ≠ []

def isNumeric : Value → Bool
  | integer _ => true
  | float _ => true
  | text _ => false

/-- The word for the kind of a value. -/
def kind : Value → String
  | integer _ => "integer"
  | float _ => "float"
  | text _ => "text"

/-- Reads a whole number if it fits 64 bits, else a finite float. -/
def readNumber? (t : Text) : Option Value :=
  let u := Text.trim t
  match (Number.readInt? u).bind Number.word? with
  | some n => some (integer n)
  | none =>
    match Number.readFloat? u with
    | some x => if x.isFinite then some (float x) else none
    | none => none

/-- The value of a line of input: a number if it reads as one, else its trimmed text. -/
def ofInput (t : Text) : Value := (readNumber? t).getD (text (Text.trim t))

/-- The value as a number, where a text must read as one. -/
def toNumber? : Value → Option Value
  | text t => readNumber? t
  | v => some v

/-- The value as a float. -/
def toFloat? : Value → Option Float
  | integer n => some (Number.ofWord n)
  | float x => some x
  | text t =>
    match readNumber? t with
    | some (integer n) => some (Number.ofWord n)
    | some (float x) => some x
    | _ => none

/-- The value as a whole number, cut toward zero. -/
def toInteger? : Value → Option Int64
  | integer n => some n
  | v =>
    match v.toFloat? with
    | some x => if Number.fitsWord x then some (Number.toWord x) else none
    | none => none

/-- The text that is printed for a value. -/
def display : Value → Text
  | integer n => Number.signedDecimal n.toInt
  | float x => Number.plain x
  | text t => t

end Value

end Courseware
