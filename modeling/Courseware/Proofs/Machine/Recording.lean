import Courseware.Proofs.Machine.Composition
import Courseware.Proofs.Text.Canonical

/-!
What computations leave in the record of a run.

The record only grows. Commands add what the host was asked, texts, and changes of variables.
The changes, made one after the other, lead from the variables before to the variables after,
so somebody who knows the first and hears the events knows the second.
-/

namespace Courseware

namespace Entry

def event? : Entry → Option Event
  | .event e _ => some e
  | _ => none

/-- The events among the records, in order. -/
def events (es : List Entry) : List Event := es.filterMap event?

@[simp] lemma events_nil : events [] = [] := rfl

@[simp] lemma events_append (es fs : List Entry) : events (es ++ fs) = events es ++ events fs :=
  List.filterMap_append

@[simp] lemma events_event (e : Event) (receivers : List Nat) (es : List Entry) :
    events (.event e receivers :: es) = e :: events es := rfl

lemma events_asked {x : Entry} (h : x.isAsked = true) : events [x] = [] := by
  cases x with
  | event e receivers => cases h
  | _ => rfl

end Entry

namespace Event

/-- The change of a variable that an event tells of. -/
def change? : Event → Option (Text × Value)
  | .variableChanged name v => some (name, v)
  | _ => none

/-- The changes that events tell of, in order. -/
def changes (evs : List Event) : List (Text × Value) := evs.filterMap change?

@[simp] lemma changes_nil : changes [] = [] := rfl

@[simp] lemma changes_append (evs fvs : List Event) :
    changes (evs ++ fvs) = changes evs ++ changes fvs :=
  List.filterMap_append

/-- Events of the commands themselves. All others are those of the loop that runs them. -/
def isEffect : Event → Bool
  | .text _ => true
  | .variableChanged .. => true
  | _ => false

end Event

namespace Variables

/-- The variables after changes that are made as they are told. -/
def replay (vars : Variables) (cs : List (Text × Value)) : Variables :=
  cs.foldl (fun vars c => vars.insert c.1 c.2) vars

@[simp] lemma replay_nil (vars : Variables) : vars.replay [] = vars := rfl

@[simp] lemma replay_append (vars : Variables) (cs ds : List (Text × Value)) :
    vars.replay (cs ++ ds) = (vars.replay cs).replay ds :=
  List.foldl_append

end Variables

open Entry Event

/-- Between two machines `es` was recorded, and that tells every change of a variable. -/
structure Records (m m' : Machine) (es : List Entry) : Prop where
  log : m'.log.toList = m.log.toList ++ es
  vars : m'.vars = m.vars.replay (changes (events es))
  named : ∀ c ∈ changes (events es), Text.canonical c.1 = c.1

namespace Records

variable {m m' m'' : Machine} {es fs : List Entry}

/-- Nothing is recorded where neither the record nor a variable is touched. -/
lemma none (hlog : m'.log = m.log) (hvars : m'.vars = m.vars) : Records m m' [] where
  log := by rw [hlog, List.append_nil]
  vars := hvars
  named _ h := by cases h

lemma trans (h : Records m m' es) (h' : Records m' m'' fs) : Records m m'' (es ++ fs) where
  log := by rw [h'.log, h.log, List.append_assoc]
  vars := by rw [h'.vars, h.vars, events_append, changes_append, Variables.replay_append]
  named c hc := by
    rw [events_append, changes_append, List.mem_append] at hc
    rcases hc with hc | hc
    · exact h.named c hc
    · exact h'.named c hc

lemma isPrefix (h : Records m m' es) : m.log.toList <+: m'.log.toList := by
  rw [h.log]
  exact List.prefix_append _ _

/-- An event that tells of no variable. -/
lemma emit (m : Machine) {e : Event} (he : e.change? = .none) :
    Records m (m.emit e) [.event e ((m.bus.emit e).1.map Prod.fst)] where
  log := Array.toList_push
  vars := by simp [changes, he, Machine.emit]
  named c hc := by simp [changes, he] at hc

/-- A variable is set under the canonical form of its name. -/
lemma setVariable (m : Machine) (name : Text) (v : Value) :
    ∃ receivers, Records m (m.setVariable name v)
      [.event (.variableChanged (Text.canonical name) v) receivers] :=
  ⟨_,
    { log := Array.toList_push
      vars := rfl
      named := fun c hc => by
        rw [List.mem_singleton.1 hc]
        exact Text.canonical_canonical name }⟩

lemma asked (m : Machine) {x : Entry} (hx : x.isAsked = true) :
    Records m { m with log := m.log.push x } [x] where
  log := Array.toList_push
  vars := by rw [events_asked hx]; rfl
  named c hc := by rw [events_asked hx] at hc; cases hc

end Records

namespace Exec

/-- What a command records. -/
def Leaves (m m' : Machine) : Prop :=
  ∃ es, Records m m' es ∧ ∀ e ∈ events es, e.isEffect = true

lemma kept_leaves (limit : Nat) : Kept limit Leaves where
  refl m := ⟨[], .none rfl rfl, fun _ h => by cases h⟩
  trans := by
    rintro m₁ m₂ m₃ ⟨es, hr, he⟩ ⟨fs, hr', he'⟩
    refine ⟨es ++ fs, hr.trans hr', fun e h => ?_⟩
    rw [events_append, List.mem_append] at h
    exact h.elim (he e) (he' e)
  control m c := ⟨[], .none rfl rfl, fun _ h => by cases h⟩
  depth m d := ⟨[], .none rfl rfl, fun _ h => by cases h⟩
  charge m _ := ⟨[], .none rfl rfl, fun _ h => by cases h⟩
  host m h := ⟨[], .none rfl rfl, fun _ h => by cases h⟩
  setVariable m name v := by
    obtain ⟨receivers, hr⟩ := Records.setVariable m name v
    refine ⟨_, hr, fun e h => ?_⟩
    rw [List.mem_singleton.1 h]
    rfl
  print m t := by
    refine ⟨_, .emit m rfl, fun e h => ?_⟩
    rw [List.mem_singleton.1 h]
    rfl
  asked m x hx := by
    refine ⟨_, .asked m hx, fun e h => ?_⟩
    rw [events_asked hx] at h
    cases h

/-- **Commands record texts, changes of variables and what the host was asked, and no variable
changes unrecorded.** -/
theorem Composed.leaves {α : Type} {x : Exec α} (hx : Composed x) (env : Environment)
    (m : Machine) : Leaves m (final (x env m)) :=
  hx.keeps (kept_leaves _) m

/-- The record only grows. -/
lemma Composed.log_grows {α : Type} {x : Exec α} (hx : Composed x) (env : Environment)
    (m : Machine) : m.log.toList <+: (final (x env m)).log.toList := by
  obtain ⟨es, hr, -⟩ := hx.leaves env m
  exact hr.isPrefix

end Exec

end Courseware
