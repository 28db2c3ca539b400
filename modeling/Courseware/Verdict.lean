/-!
The outcome of the most recent test of a program. It can be consumed once, and only by the
command right after the test: every command settles it, which lets an outcome expire that was
not picked up in time.
-/

namespace Courseware

structure Verdict where
  /-- The last outcome, kept also when it has been consumed. -/
  last : Bool := false
  consumed : Bool := true
  /-- The outcome was stored by the command that is about to be settled. -/
  fresh : Bool := false
deriving DecidableEq

namespace Verdict

instance : Inhabited Verdict := ⟨{}⟩

/-- Stores a new outcome. -/
def arm (_ : Verdict) (b : Bool) : Verdict := ⟨b, false, true⟩

/-- Consumes the outcome if it is still there. -/
def take (v : Verdict) : Option Bool × Verdict :=
  if v.consumed then (none, v) else (some v.last, { v with consumed := true })

def available (v : Verdict) : Bool := !v.consumed

/-- Called after every command. -/
def settle (v : Verdict) : Verdict :=
  if v.fresh then { v with fresh := false } else { v with consumed := true }

def clear (_ : Verdict) : Verdict := {}

end Verdict

end Courseware
