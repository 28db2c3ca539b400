/-!
Random numbers. Which numbers a seed stands for, and which there are without a seed, is not fixed
here: both are given by a source from outside.
-/

namespace Courseware

/-- Where random numbers come from. -/
structure RandomSource where
  /-- The numbers that are drawn one after the other for a seed. -/
  seeded : UInt64 → Nat → Float
  /-- The numbers of the generators that are started without a seed, one after the other. No two
  of them need to be alike. -/
  unseeded : Nat → Nat → Float
  /-- How many generators have been started without a seed. -/
  taken : Nat := 0

/-- A generator, and the source from which the next one is started. -/
structure Generator where
  numbers : Nat → Float
  /-- How many numbers have been drawn. -/
  drawn : Nat := 0
  source : RandomSource

namespace RandomSource

/-- The generator for a seed. Without a seed, the next one that the source supplies. -/
def start (r : RandomSource) : Option UInt64 → Generator
  | some seed => { numbers := r.seeded seed, source := r }
  | none => { numbers := r.unseeded r.taken, source := { r with taken := r.taken + 1 } }

/-! ### A source by counting -/

def scramble (n : UInt64) : UInt64 :=
  let n := (n ^^^ (n >>> 30)) * 0xBF58476D1CE4E5B9
  let n := (n ^^^ (n >>> 27)) * 0x94D049BB133111EB
  n ^^^ (n >>> 31)

/-- The place of a seed after `n` steps of a fixed odd length. -/
def advance (seed : UInt64) (n : Nat) : UInt64 := seed + UInt64.ofNat n * 0x9E3779B97F4A7C15

/-- A float from 0 up to but not including 1, with 53 random bits. -/
def number (seed : UInt64) (n : Nat) : Float :=
  Float.ofNat (scramble (advance seed (n + 1)) >>> 11).toNat / 9007199254740992

/-- Numbers from a counter that is scrambled. Where there is no seed, one is taken from
`entropy`. -/
def counting (entropy : UInt64) : RandomSource where
  seeded := number
  unseeded k := number (scramble (advance entropy k))

instance : Inhabited RandomSource := ⟨counting 0⟩

end RandomSource

namespace Generator

instance : Inhabited Generator := ⟨RandomSource.start default none⟩

def draw (g : Generator) : Float × Generator := (g.numbers g.drawn, { g with drawn := g.drawn + 1 })

/-- Starts again from a seed, or without one. -/
def reseed (g : Generator) (seed : Option UInt64) : Generator := g.source.start seed

end Generator

end Courseware
