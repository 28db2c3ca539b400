import Courseware.Debugger
import Courseware.Event.Basic

/-!
The event bus. Subscribers are told of the events of their channel in the order in which they
subscribed; one that fails or crashes disturbs neither the others nor the program.
-/

namespace Courseware

/-- How a subscriber takes an event. It may act on the debugger. -/
inductive Reaction where
  | done
  | failed
  | crashed
  | act (a : Debugger.Action)

structure Subscriber where
  id : Nat
  channel : Channel
  /-- The reaction to an event, given how many the subscriber has received before. -/
  react : Nat → Event → Reaction
  received : Nat := 0

structure Bus where
  /-- The number given out last; numbers begin with 1 and are never used again. -/
  last : Nat := 0
  subscribers : List Subscriber := []

namespace Bus

instance : Inhabited Bus := ⟨{}⟩

/-- Adds a subscriber and tells its number. -/
def subscribe (b : Bus) (c : Channel) (react : Nat → Event → Reaction) : Nat × Bus :=
  (b.last + 1,
    { last := b.last + 1
      subscribers := b.subscribers ++ [{ id := b.last + 1, channel := c, react }] })

def isLive (b : Bus) (id : Nat) : Bool := b.subscribers.any (·.id == id)

/-- Removes a subscriber and tells whether there was one. -/
def unsubscribe (b : Bus) (id : Nat) : Bool × Bus :=
  (b.isLive id, { b with subscribers := b.subscribers.filter (·.id ≠ id) })

def count (b : Bus) (c : Channel) : Nat := (b.subscribers.filter (·.channel = c)).length

/-- The subscribers that an event is delivered to, in order. -/
def receivers (b : Bus) (e : Event) : List Subscriber :=
  b.subscribers.filter (·.channel = e.channel)

/-- Delivers an event: the number and the reaction of every subscriber told. -/
def emit (b : Bus) (e : Event) : List (Nat × Reaction) × Bus :=
  ((b.receivers e).map fun s => (s.id, s.react s.received e),
    { b with subscribers := b.subscribers.map fun s =>
        if s.channel = e.channel then { s with received := s.received + 1 } else s })

end Bus

end Courseware
