import Courseware.Number.Binary
import Courseware.Number.Decimal

/-!
Reading floats: digits with an optional point and exponent, rounded to the nearest float,
and the names of what is not finite.
-/

namespace Courseware.Number

/-- The float nearest to `mantissa * 10 ^ exponent`. Far outside the range of floats the
result is zero or infinite without further work. -/
def nearest (mantissa : Nat) (exponent : Int) : Float :=
  let magnitude := (decimal mantissa).length + exponent
  if mantissa = 0 ∨ magnitude < -400 then 0
  else if 400 < magnitude then infinity
  else Float.ofScientific mantissa (exponent < 0) exponent.natAbs

/-- Reads the exponent of a number, which may be missing altogether. -/
def readExponent? : Text → Option Int
  | [] => some 0
  | c :: t => if c = 'e' ∨ c = 'E' then readInt? t else none

/-- Reads a number without a sign: digits, a point and digits, an exponent. Digits may be
missing on one side of the point. -/
def readUnsigned? (t : Text) : Option Float :=
  let whole := t.takeWhile isDigit
  let rest := t.dropWhile isDigit
  let fraction := match rest with
    | '.' :: r => r.takeWhile isDigit
    | _ => []
  let tail := match rest with
    | '.' :: r => r.dropWhile isDigit
    | r => r
  if whole ++ fraction = [] then none
  else
    (readExponent? tail).map fun e =>
      nearest (digitsValue (whole ++ fraction)) (e - fraction.length)

/-- Reads the magnitude of a float, also an infinite one or one that is not a number. -/
def readMagnitude? (t : Text) : Option Float :=
  let u := Text.lower t
  if u = "inf".toList ∨ u = "infinity".toList then some infinity
  else if u = "nan".toList then some nan
  else readUnsigned? t

/-- Reads a float with an optional sign. -/
def readFloat? : Text → Option Float
  | '+' :: t => readMagnitude? t
  | '-' :: t => (readMagnitude? t).map Float.neg
  | t => readMagnitude? t

end Courseware.Number
