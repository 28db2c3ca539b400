import Courseware.Text.Basic

/-!
Decimal numerals: writing whole numbers, and reading them with an optional sign.
-/

namespace Courseware.Number

/-- The character of a digit below ten. -/
def digit (d : Nat) : Char := Char.ofNat (48 + d)

def isDigit (c : Char) : Bool := 48 ≤ c.toNat && c.toNat ≤ 57

/-- A whole number without leading zeros. -/
def decimal (n : Nat) : Text :=
  if n < 10 then [digit n] else decimal (n / 10) ++ [digit (n % 10)]

/-- A whole number with a minus sign if it is negative. -/
def signedDecimal (n : Int) : Text :=
  if n < 0 then '-' :: decimal n.natAbs else decimal n.natAbs

/-- The value of a run of digits. -/
def digitsValue (t : Text) : Nat := t.foldl (fun v c => 10 * v + (c.toNat - 48)) 0

/-- Reads a nonempty run of digits. -/
def readDigits? (t : Text) : Option Nat :=
  if t ≠ [] ∧ t.all isDigit then some (digitsValue t) else none

/-- Reads digits after an optional plus sign. -/
def readNat? : Text → Option Nat
  | '+' :: t => readDigits? t
  | t => readDigits? t

/-- Reads digits after an optional sign. -/
def readInt? : Text → Option Int
  | '+' :: t => (readDigits? t).map Int.ofNat
  | '-' :: t => (readDigits? t).map fun n => -(n : Int)
  | t => (readDigits? t).map Int.ofNat

theorem decimal_of_lt {n : Nat} (h : n < 10) : decimal n = [digit n] := by
  rw [decimal, if_pos h]

theorem decimal_of_ge {n : Nat} (h : ¬ n < 10) :
    decimal n = decimal (n / 10) ++ [digit (n % 10)] := by
  rw [decimal, if_neg h]

theorem decimal_ne_nil (n : Nat) : decimal n ≠ [] := by
  by_cases h : n < 10
  · simp [decimal_of_lt h]
  · simp [decimal_of_ge h]

end Courseware.Number
