import Courseware.Value

/-!
What a run reports, and the channels on which it does.
-/

namespace Courseware

inductive Channel where
  | output
  | variableChanged
  | lineExecuted
  | programStarted
  | programFinished
  | breakpointHit
deriving DecidableEq

inductive Event where
  | text (t : Text)
  | lineError (index sourceLine : Nat) (message : String) (fatal : Bool)
  | variableChanged (name : Text) (v : Value)
  | lineExecuted (index : Nat)
  | programStarted
  | programFinished (success : Bool)
  | breakpointHit (index : Nat)

def Event.channel : Event → Channel
  | text _ => .output
  | lineError .. => .output
  | variableChanged .. => .variableChanged
  | lineExecuted _ => .lineExecuted
  | programStarted => .programStarted
  | programFinished _ => .programFinished
  | breakpointHit _ => .breakpointHit

end Courseware
