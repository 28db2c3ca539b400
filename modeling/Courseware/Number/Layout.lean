import Courseware.Number.Shortest

/-!
How floats are written. Plain text never has an exponent and writes a whole number without a
point; a number of the state dump always has a point or an exponent.
-/

namespace Courseware.Number

/-- A text of `n` zeros. -/
def zeros (n : Nat) : Text := List.replicate n '0'

/-- Digits with the point after the first `point` of them, filled with zeros. -/
def positional (digits : Text) (point : Int) : Text :=
  if (digits.length : Int) ≤ point then digits ++ zeros (point - digits.length).toNat
  else if 0 < point then digits.take point.toNat ++ '.' :: digits.drop point.toNat
  else '0' :: '.' :: zeros (-point).toNat ++ digits

/-- The sign to be written in front, also before zero. -/
def sign (x : Float) : Text := if (Binary.ofFloat x).negative then ['-'] else []

/-- The plain text of a float. -/
def plain (x : Float) : Text :=
  if x.isNaN then "NaN".toList
  else sign x ++
    if x.isInf then "inf".toList
    else if x == 0 then ['0']
    else
      let s := shortest true x
      let ds := decimal s.digits
      positional ds (ds.length + s.exponent)

/-- The number of the state dump. Exponents from -5 to 15 are written positionally; there is
no number for what is not finite. -/
def dumped (x : Float) : Text :=
  if !x.isFinite then "null".toList
  else sign x ++
    if x == 0 then "0.0".toList
    else
      let s := shortest false x
      let ds := decimal s.digits
      let point := ds.length + s.exponent
      if 0 ≤ s.exponent ∧ point ≤ 16 then positional ds point ++ ".0".toList
      else if -5 < point ∧ point ≤ 16 then positional ds point
      else
        let e := point - 1
        let mantissa := match ds with
          | [] => []
          | [d] => [d]
          | d :: r => d :: '.' :: r
        mantissa ++ (if e < 0 then "e-".toList else "e+".toList) ++ decimal e.natAbs

end Courseware.Number
