/-!
A finite float is a whole number times a power of two. This module reads off the two parts
and does with them what must be exact: truncation, the remainder of a division, conversion
to and from whole numbers.
-/

namespace Courseware.Number

/-- The number `± mantissa * 2 ^ exponent`. -/
structure Binary where
  negative : Bool
  mantissa : Nat
  exponent : Int

/-- The parts of a finite float. -/
def Binary.ofFloat (x : Float) : Binary :=
  let bits := x.toBits.toNat
  let field : Nat := (bits >>> 52) % 2048
  let low : Nat := bits % (1 <<< 52)
  { negative := 1 <<< 63 ≤ bits
    mantissa := if field = 0 then low else (1 <<< 52) + low
    exponent := if field = 0 then -1074 else (field : Int) - 1075 }

/-- The whole part, toward zero. -/
def Binary.truncate (b : Binary) : Int :=
  let n := if 0 ≤ b.exponent then b.mantissa <<< b.exponent.toNat
    else b.mantissa >>> (-b.exponent).toNat
  if b.negative then -(n : Int) else n

/-- The float with the given parts, which are known to make one up. -/
def Binary.toFloat (b : Binary) : Float :=
  let x := Float.scaleB (Float.ofNat b.mantissa) b.exponent
  if b.negative then -x else x

/-- The float nearest to a 64 bit number. -/
def ofWord (n : Int64) : Float := Float.ofInt n.toInt

/-- The whole part of a float, kept within the bounds; nothing but zero for a float that is
not a number. -/
def truncateWithin (lo hi : Int) (x : Float) : Int :=
  if x.isNaN then 0
  else if x.isInf then (if x < 0 then lo else hi)
  else max lo (min hi (Binary.ofFloat x).truncate)

/-- The nearest 64 bit number toward zero. -/
def toWord (x : Float) : Int64 :=
  Int64.ofInt (truncateWithin Int64.minValue.toInt Int64.maxValue.toInt x)

/-- Whether the float lies between the bounds of 64 bit numbers, both included. -/
def fitsWord (x : Float) : Bool :=
  x.isFinite && ofWord Int64.minValue ≤ x && x ≤ ofWord Int64.maxValue

/-- The float that is not a number. -/
def nan : Float := 0.0 / 0.0

def infinity : Float := 1.0 / 0.0

/-- The exact remainder of a division toward zero; it has the sign of `x`. -/
def remainderFloat (x y : Float) : Float :=
  if x.isNaN || y.isNaN || x.isInf || y == 0 then nan
  else if y.isInf then x
  else
    let a := Binary.ofFloat x
    let b := Binary.ofFloat y
    let e := min a.exponent b.exponent
    let m := a.mantissa <<< (a.exponent - e).toNat
    let n := b.mantissa <<< (b.exponent - e).toNat
    Binary.toFloat ⟨a.negative, m % n, e⟩

/-- The remainder moved up by `y` when it is negative; a tiny negative remainder gives `y`. -/
def wrap (x y : Float) : Float :=
  let r := remainderFloat x y
  if r < 0 then r + y else r

/-- A power of ten by repeated squaring. -/
def powerOfTen (n : Nat) : Float :=
  go n n 1 10
where
  /-- Multiplies `r` by `a ^ n`, for `n` at most `fuel`. -/
  go : (fuel n : Nat) → (r a : Float) → Float
    | 0, _, r, _ => r
    | fuel + 1, n, r, a =>
      let r := if n % 2 = 1 then r * a else r
      if n / 2 = 0 then r else go fuel (n / 2) r (a * a)

/-- Ten to a power of either sign. -/
def scaleOfTen (d : Int) : Float :=
  if d < 0 then 1 / powerOfTen d.natAbs else powerOfTen d.natAbs

/-- Angles in radians: the factor is rounded before the product. -/
def radians (degrees : Float) : Float := degrees * (3.141592653589793 / 180.0)

end Courseware.Number
