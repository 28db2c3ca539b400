import Courseware.Number.Binary
import Courseware.Number.Decimal

/-!
The shortest decimal that reads back as a given float. The reals that round to the float
form an interval; among the decimals with the fewest digits in it the nearest is taken.
All arithmetic is on whole numbers.
-/

namespace Courseware.Number

/-- The number `digits * 10 ^ exponent`. -/
structure Scientific where
  digits : Nat
  exponent : Int
deriving DecidableEq

/-- The reals that round to a float, as numerators over a common denominator. The ends belong
to the interval when the mantissa is even. -/
structure Interval where
  low : Nat
  mid : Nat
  high : Nat
  denominator : Nat
  closed : Bool

/-- The interval of a positive float. Below a power of two the floats lie twice as close. -/
def Interval.ofBinary (b : Binary) : Interval :=
  let e := b.exponent - 2
  let up := 1 <<< e.toNat
  let narrow := b.mantissa = 1 <<< 52 ∧ b.exponent ≠ -1074
  { low := (4 * b.mantissa - (if narrow then 1 else 2)) * up
    mid := 4 * b.mantissa * up
    high := (4 * b.mantissa + 2) * up
    denominator := 1 <<< (-e).toNat
    closed := b.mantissa % 2 = 0 }

/-- How many digits a whole number has. -/
def digitCount (n : Nat) : Nat := if n < 10 then 1 else digitCount (n / 10) + 1

/-- How many zeros come right after the point of a fraction below one; at most `fuel`. -/
def zerosAfterPoint : (fuel numerator denominator : Nat) → Nat
  | 0, _, _ => 0
  | fuel + 1, n, d => if d ≤ 10 * n then 0 else zerosAfterPoint fuel (10 * n) d + 1

/-- The least `k` with the middle of the interval below `10 ^ k`; no float is so small that
400 places do not reach its first digit. -/
def Interval.magnitude (i : Interval) : Int :=
  let whole := i.mid / i.denominator
  if whole = 0 then -(zerosAfterPoint 400 i.mid i.denominator : Int) else digitCount whole

/-- The best multiple of `10 ^ k` in the interval. Of two equally near ones the upper is
taken, or the even one, as `tieUp` says. -/
def Interval.candidate? (i : Interval) (tieUp : Bool) (k : Int) : Option Nat :=
  let up := Nat.pow 10 (-k).toNat
  let unit := i.denominator * Nat.pow 10 k.toNat
  let low := i.low * up
  let mid := i.mid * up
  let high := i.high * up
  let d := mid / unit
  let inside := fun (n : Nat) =>
    if i.closed then low ≤ n * unit ∧ n * unit ≤ high else low < n * unit ∧ n * unit < high
  let below := decide (inside d)
  let above := decide (inside (d + 1))
  let rest := 2 * (mid - d * unit)
  if below && above then
    if rest < unit then some d
    else if unit < rest then some (d + 1)
    else if tieUp || d % 2 = 1 then some (d + 1) else some d
  else if below then some d
  else if above then some (d + 1)
  else none

/-- Removes the zeros at the end of the digits. -/
def Scientific.strip : (fuel : Nat) → Scientific → Scientific
  | 0, s => s
  | fuel + 1, s =>
    if s.digits % 10 = 0 ∧ s.digits ≠ 0 then strip fuel ⟨s.digits / 10, s.exponent + 1⟩ else s

/-- The shortest decimal of a finite float other than zero, without its sign. Seventeen
digits always suffice. -/
def shortest (tieUp : Bool) (x : Float) : Scientific :=
  let i := Interval.ofBinary (Binary.ofFloat x)
  let m := i.magnitude
  let found := (List.range 17).findSome? fun (n : Nat) =>
    let k := m - (n + 1)
    (i.candidate? tieUp k).map fun d => (⟨d, k⟩ : Scientific)
  (found.getD ⟨0, 0⟩).strip 20

end Courseware.Number
