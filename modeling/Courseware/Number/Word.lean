/-!
Whole numbers of 64 bits. An operation whose exact result does not fit gives nothing, so a
result that is given is always exact.
-/

namespace Courseware.Number

/-- The 64 bit number equal to `n`, if there is one. -/
def word? (n : Int) : Option Int64 :=
  if Int64.minValue.toInt ≤ n ∧ n ≤ Int64.maxValue.toInt then some (Int64.ofInt n) else none

def add? (a b : Int64) : Option Int64 := word? (a.toInt + b.toInt)

def sub? (a b : Int64) : Option Int64 := word? (a.toInt - b.toInt)

def mul? (a b : Int64) : Option Int64 := word? (a.toInt * b.toInt)

def neg? (a : Int64) : Option Int64 := word? (-a.toInt)

def abs? (a : Int64) : Option Int64 := word? a.toInt.natAbs

/-- The remainder that has the sign of `a`; `b` is not zero. -/
def remainder (a b : Int64) : Int64 := Int64.ofInt (a.toInt.tmod b.toInt)

/-- A power that may fit has a small exponent, unless its base is -1, 0 or 1. -/
def pow? (a : Int64) (n : Nat) : Option Int64 :=
  if n < 64 then word? (a.toInt.pow n)
  else if a.toInt = 0 then some 0
  else if a.toInt = 1 then some 1
  else if a.toInt = -1 then some (if n % 2 = 0 then 1 else -1)
  else none

theorem toInt_of_word? {n : Int} {w : Int64} (h : word? n = some w) : w.toInt = n := by
  unfold word? at h
  split at h
  · next hn =>
    obtain rfl := Option.some.inj h
    exact Int64.toInt_ofInt_of_le hn.1 (Int.lt_of_le_of_lt hn.2 (by decide))
  · cases h

theorem word?_toInt (w : Int64) : word? w.toInt = some w := by
  rw [word?, if_pos ⟨w.minValue_le_toInt, w.toInt_le⟩, Int64.ofInt_toInt]

end Courseware.Number
