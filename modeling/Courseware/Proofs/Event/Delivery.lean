import Courseware.Event.Bus
import Mathlib.Data.List.Nodup
import Mathlib.Tactic.Lemma

/-!
Whom the event bus tells of an event.

After any history of a bus the subscribers are those that have subscribed and have not been
removed since, in the order in which they subscribed. Each has been told once of every event of its
channel since then, however it and the others took the events.
-/

namespace Courseware.Bus

/-- What can be done with a bus. -/
inductive Op where
  | subscribe (c : Channel) (react : Nat → Event → Reaction)
  | unsubscribe (id : Nat)
  | emit (e : Event)

namespace Op

/-- The operation removes the subscriber with the number `id`, if there is one. -/
def removes (id : Nat) : Op → Bool
  | .unsubscribe i => i == id
  | _ => false

/-- The operation is an event of the channel `c`. -/
def isOn (c : Channel) : Op → Bool
  | .emit e => e.channel = c
  | _ => false

end Op

def perform (b : Bus) : Op → Bus
  | .subscribe c react => (b.subscribe c react).2
  | .unsubscribe id => (b.unsubscribe id).2
  | .emit e => (b.emit e).2

def replay (b : Bus) (ops : List Op) : Bus := ops.foldl perform b

/-- A subscription, with the number that was given for it and what was done with the bus since. -/
structure Subscription where
  id : Nat
  channel : Channel
  react : Nat → Event → Reaction
  since : List Op

namespace Subscription

def isLive (s : Subscription) : Bool := !s.since.any (Op.removes s.id)

/-- How many events there have been on the channel of the subscription. -/
def told (s : Subscription) : Nat := s.since.countP (Op.isOn s.channel)

def subscriber (s : Subscription) : Subscriber :=
  { id := s.id, channel := s.channel, react := s.react, received := s.told }

end Subscription

/-- The subscriptions that a history makes, in order. -/
def made (b : Bus) : List Op → List Subscription
  | [] => []
  | .subscribe c react :: ops =>
    ⟨(b.subscribe c react).1, c, react, ops⟩ :: made (b.subscribe c react).2 ops
  | .unsubscribe id :: ops => made (b.unsubscribe id).2 ops
  | .emit e :: ops => made (b.emit e).2 ops

/-- The subscriptions that a history makes and does not end. -/
def live (b : Bus) (ops : List Op) : List Subscription := (b.made ops).filter (·.isLive)

variable {b : Bus}

/-! ### Numbers -/

lemma ids_made (b : Bus) (ops : List Op) :
    (b.made ops).map (·.id) = List.range' (b.last + 1) (b.made ops).length := by
  induction ops generalizing b with
  | nil => rfl
  | cons o ops ih =>
    cases o with
    | subscribe c react =>
      simp only [made, List.map_cons, List.length_cons, List.range'_succ, ih]
      rfl
    | unsubscribe id => exact ih (b.unsubscribe id).2
    | emit e => exact ih (b.emit e).2

lemma nodup_ids_made (b : Bus) (ops : List Op) : ((b.made ops).map (·.id)).Nodup := by
  rw [ids_made]
  exact List.nodup_range'

lemma nodup_ids_live (b : Bus) (ops : List Op) : ((b.live ops).map (·.id)).Nodup :=
  (nodup_ids_made b ops).sublist (List.filter_sublist.map _)

/-! ### Subscribers -/

/-- A subscriber when it has been told of the events among `ops`. -/
def later (ops : List Op) (s : Subscriber) : Subscriber :=
  { s with received := s.received + ops.countP (Op.isOn s.channel) }

/-- Nobody is told of what is no event. -/
lemma later_cons {o : Op} (ho : ∀ c, o.isOn c = false) (ops : List Op) :
    later (o :: ops) = later ops := by
  funext s
  simp [later, ho]

/-- What `ops` leave of subscribers. -/
def remaining (ops : List Op) (subs : List Subscriber) : List Subscriber :=
  (subs.filter fun s => !ops.any (Op.removes s.id)).map (later ops)

lemma remaining_nil (subs : List Subscriber) : remaining [] subs = subs := by
  have hall : (subs.filter fun s => !([] : List Op).any (Op.removes s.id)) = subs :=
    List.filter_eq_self.2 fun _ _ => rfl
  rw [remaining, hall]
  exact List.map_id _

lemma remaining_append (ops : List Op) (subs subs' : List Subscriber) :
    remaining ops (subs ++ subs') = remaining ops subs ++ remaining ops subs' := by
  simp only [remaining, List.filter_append, List.map_append]

lemma remaining_subscribe (c : Channel) (react : Nat → Event → Reaction) (ops : List Op)
    (subs : List Subscriber) :
    remaining (.subscribe c react :: ops) subs = remaining ops subs := by
  rw [remaining, later_cons fun _ => rfl]
  rfl

lemma remaining_unsubscribe (id : Nat) (ops : List Op) (subs : List Subscriber) :
    remaining (.unsubscribe id :: ops) subs = remaining ops (subs.filter (·.id ≠ id)) := by
  unfold remaining
  rw [later_cons (fun _ => rfl), List.filter_filter]
  congr 1
  refine List.filter_congr fun s _ => ?_
  by_cases h : s.id = id
  · simp [Op.removes, h]
  · simp [Op.removes, h, Ne.symm h]

lemma remaining_emit (e : Event) (ops : List Op) (b : Bus) :
    remaining (.emit e :: ops) b.subscribers = remaining ops (b.emit e).2.subscribers := by
  unfold remaining emit
  rw [List.filter_map, List.map_map]
  have hid : ((fun s : Subscriber => !ops.any (Op.removes s.id)) ∘ fun s =>
      if s.channel = e.channel then { s with received := s.received + 1 } else s) =
        fun s => !(Op.emit e :: ops).any (Op.removes s.id) := by
    funext s
    by_cases h : s.channel = e.channel <;> simp [h, Op.removes]
  rw [hid]
  refine List.map_congr_left fun s _ => ?_
  by_cases h : s.channel = e.channel
  · simp [later, h, Op.isOn, Nat.add_assoc, Nat.add_comm 1]
  · simp [later, h, Op.isOn, Ne.symm h]

/-- A new subscriber remains if its subscription is not ended. -/
lemma remaining_new (s : Subscription) :
    remaining s.since [{ id := s.id, channel := s.channel, react := s.react }] =
      ([s].filter (·.isLive)).map Subscription.subscriber := by
  have hnew : later s.since { id := s.id, channel := s.channel, react := s.react } =
      s.subscriber := by
    simp [later, Subscription.subscriber, Subscription.told]
  unfold remaining
  by_cases h : s.isLive = true
  · have h' : (!s.since.any (Op.removes s.id)) = true := h
    simp only [List.filter_cons, h, h', if_true, List.filter_nil, List.map_cons, List.map_nil, hnew]
  · have h' : ¬ (!s.since.any (Op.removes s.id)) = true := h
    simp only [List.filter_cons, h, h', List.filter_nil]
    rfl

/-- **The subscribers after a history** are what it leaves of those there were, and then those whose
subscriptions it makes and does not end. -/
theorem subscribers_replay (b : Bus) (ops : List Op) :
    (b.replay ops).subscribers =
      remaining ops b.subscribers ++ (b.live ops).map Subscription.subscriber := by
  induction ops generalizing b with
  | nil => simp [replay, live, made, remaining_nil]
  | cons o ops ih =>
    have hstep : b.replay (o :: ops) = (b.perform o).replay ops := rfl
    rw [hstep, ih]
    cases o with
    | subscribe c react =>
      have hlive : b.live (.subscribe c react :: ops) =
          [⟨b.last + 1, c, react, ops⟩].filter (·.isLive) ++ (b.subscribe c react).2.live ops :=
        List.filter_append [_] _
      have hsubs : (b.subscribe c react).2.subscribers =
          b.subscribers ++ [{ id := b.last + 1, channel := c, react }] := rfl
      -- the new subscriber stays just if what follows does not remove it
      have hnew := remaining_new ⟨b.last + 1, c, react, ops⟩
      dsimp only at hnew
      rw [remaining_subscribe, hlive, perform, hsubs, remaining_append, hnew, List.map_append,
        List.append_assoc]
    | unsubscribe id =>
      rw [remaining_unsubscribe]
      rfl
    | emit e =>
      rw [remaining_emit]
      rfl

/-- Of a new bus, the subscribers are those whose subscriptions have not ended. -/
lemma subscribers_replay_new (ops : List Op) :
    (replay {} ops).subscribers = (live {} ops).map Subscription.subscriber := by
  rw [subscribers_replay]
  rfl

/-! ### Deliveries -/

/-- What a history of a new bus decides. -/
structure Decided (ops : List Op) : Prop where
  /-- Subscriptions are numbered in order from 1 on, so that numbers up to `n` last for `n` of
  them. -/
  numbered : (made {} ops).map (·.id) = List.range' 1 (made {} ops).length
  /-- No number is given twice, also if the first subscription has ended. -/
  distinct : ((made {} ops).map (·.id)).Nodup
  /-- An event goes once to each live subscription on its channel, in order. -/
  delivered : ∀ e, ((replay {} ops).emit e).1 =
    ((live {} ops).filter (·.channel = e.channel)).map fun s => (s.id, s.react s.told e)
  /-- A host is told whether there was something to remove. -/
  known : ∀ id, ((replay {} ops).unsubscribe id).1 = true ↔ ∃ s ∈ live {} ops, s.id = id
  /-- What is removed is one subscription and no other. -/
  removed : ∀ s ∈ live {} ops, ∃ before after,
    (replay {} ops).subscribers = before ++ s.subscriber :: after ∧
      ((replay {} ops).unsubscribe s.id).2.subscribers = before ++ after
  /-- Nothing is removed if nothing has this number. -/
  unknown : ∀ id, (∀ s ∈ live {} ops, s.id ≠ id) →
    ((replay {} ops).unsubscribe id).2 = replay {} ops
  counted : ∀ c, (replay {} ops).count c = ((live {} ops).filter (·.channel = c)).length

lemma unsubscribe_eq_true_iff {id : Nat} :
    (b.unsubscribe id).1 = true ↔ ∃ s ∈ b.subscribers, s.id = id := by
  simp [unsubscribe, isLive]

/-- Of subscribers with different numbers, one is removed. -/
lemma unsubscribe_of_split {before after : List Subscriber} {s : Subscriber}
    (hb : b.subscribers = before ++ s :: after) (h : (b.subscribers.map (·.id)).Nodup) :
    (b.unsubscribe s.id).2.subscribers = before ++ after := by
  rw [hb, List.map_append, List.map_cons, List.nodup_middle, List.nodup_cons] at h
  have hother : ∀ t ∈ before ++ after, t.id ≠ s.id := by
    intro t ht hid
    refine h.1 ?_
    rw [← List.map_append, ← hid]
    exact List.mem_map_of_mem ht
  have hbefore : before.filter (·.id ≠ s.id) = before :=
    List.filter_eq_self.2 fun t ht => decide_eq_true (hother t (List.mem_append_left _ ht))
  have hafter : after.filter (·.id ≠ s.id) = after :=
    List.filter_eq_self.2 fun t ht => decide_eq_true (hother t (List.mem_append_right _ ht))
  have hself : (s :: after).filter (·.id ≠ s.id) = after.filter (·.id ≠ s.id) :=
    List.filter_cons_of_neg (by simp)
  change b.subscribers.filter (·.id ≠ s.id) = before ++ after
  rw [hb, List.filter_append, hself, hbefore, hafter]

/-- **Delivery is exact.** A history of a new bus decides whom it tells of an event, whom it can
remove and how many subscribers it counts. -/
theorem history_decides_delivery (ops : List Op) : Decided ops where
  numbered := ids_made {} ops
  distinct := nodup_ids_made {} ops
  delivered e := by
    simp only [emit, receivers, subscribers_replay_new, List.filter_map, List.map_map]
    rfl
  known id := by
    simp only [unsubscribe_eq_true_iff, subscribers_replay_new, List.mem_map,
      exists_exists_and_eq_and]
    rfl
  removed s hs := by
    obtain ⟨before, after, hsplit⟩ := List.append_of_mem hs
    have hsubs : (replay {} ops).subscribers = before.map Subscription.subscriber ++
        s.subscriber :: after.map Subscription.subscriber := by
      rw [subscribers_replay_new, hsplit, List.map_append, List.map_cons]
    have hnodup : ((replay {} ops).subscribers.map (·.id)).Nodup := by
      rw [subscribers_replay_new, List.map_map]
      exact nodup_ids_live {} ops
    exact ⟨_, _, hsubs, unsubscribe_of_split hsubs hnodup⟩
  unknown id h := by
    have hall : (replay {} ops).subscribers.filter (·.id ≠ id) = (replay {} ops).subscribers := by
      refine List.filter_eq_self.2 fun t ht => decide_eq_true ?_
      rw [subscribers_replay_new] at ht
      obtain ⟨s, hs, rfl⟩ := List.mem_map.1 ht
      exact h s hs
    unfold unsubscribe
    rw [hall]
  counted c := by
    simp only [count, subscribers_replay_new, List.filter_map, List.length_map]
    rfl

end Courseware.Bus
