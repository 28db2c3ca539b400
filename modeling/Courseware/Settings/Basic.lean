import Courseware.Expr.Token

/-!
The settings of an engine.
-/

namespace Courseware

/-- What happens at a pause: the run waits for a signal, or it returns to the host. -/
inductive SuspendMode where
  | block
  | yield
deriving DecidableEq

structure Settings where
  /-- How many commands a run may execute. -/
  maxCommands : Nat := 10000
  /-- How deep calls of procedures may nest. -/
  maxCallDepth : Nat := 64
  limits : Expr.Limits := {}
  suspend : SuspendMode := .block
  seed : Option UInt64 := none
deriving DecidableEq

instance : Inhabited Settings := ⟨{}⟩

end Courseware
