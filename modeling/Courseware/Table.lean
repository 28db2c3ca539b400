import Courseware.Text.Basic

/-!
Tables from texts to values, listed in the order of their keys. Insertion is one pass that
replaces an entry of the same key, so looking up after inserting needs no assumption on the
table.
-/

namespace Courseware

namespace Text

theorem order_eq_iff {s t : Text} : order s t = .eq ↔ s = t := by
  induction s generalizing t with
  | nil => cases t <;> simp [order]
  | cons c s ih =>
    cases t with
    | nil => simp [order]
    | cons d t =>
      rw [order]
      split
      · next h => simp only [reduceCtorEq, false_iff]; rintro ⟨⟩; omega
      · split
        · next h => simp only [reduceCtorEq, false_iff]; rintro ⟨⟩; omega
        · next h₁ h₂ =>
          have hcd : c = d := by
            have : c.toNat = d.toNat := by omega
            exact Char.ext (UInt32.toNat.inj this)
          rw [ih, hcd, List.cons.injEq, eq_self, true_and]

end Text

structure Table (α : Type) where
  entries : List (Text × α) := []

namespace Table

variable {α : Type}

def empty : Table α := {}

instance : Inhabited (Table α) := ⟨empty⟩

def get? (t : Table α) (k : Text) : Option α := t.entries.lookup k

def contains (t : Table α) (k : Text) : Bool := (t.get? k).isSome

def keys (t : Table α) : List Text := t.entries.map Prod.fst

def size (t : Table α) : Nat := t.entries.length

def insertEntry (k : Text) (a : α) : List (Text × α) → List (Text × α)
  | [] => [(k, a)]
  | (k', a') :: r =>
    match Text.order k k' with
    | .lt => (k, a) :: (k', a') :: r
    | .eq => (k, a) :: r
    | .gt => (k', a') :: insertEntry k a r

/-- The table with the entry for `k` set to `a`. -/
def insert (t : Table α) (k : Text) (a : α) : Table α := ⟨insertEntry k a t.entries⟩

theorem lookup_insertEntry (k : Text) (a : α) (l : List (Text × α)) (k' : Text) :
    (insertEntry k a l).lookup k' = if k' = k then some a else l.lookup k' := by
  by_cases h : k' = k
  · subst h
    rw [if_pos rfl]
    induction l with
    | nil => simp [insertEntry]
    | cons e r ih =>
      rw [insertEntry]
      split
      · simp
      · simp
      · next ho =>
        have hne : k' ≠ e.1 := by
          intro he
          rw [Text.order_eq_iff.2 he] at ho
          cases ho
        rw [List.lookup_cons, beq_eq_false_iff_ne.2 hne, ih]
  · have hb := beq_eq_false_iff_ne.2 h
    rw [if_neg h]
    induction l with
    | nil => simp [insertEntry, List.lookup_cons, hb]
    | cons e r ih =>
      rw [insertEntry]
      split
      · rw [List.lookup_cons, hb]
      · next ho =>
        rw [List.lookup_cons, List.lookup_cons, ← Text.order_eq_iff.1 ho, hb]
      · rw [List.lookup_cons, List.lookup_cons, ih]

theorem get?_insert (t : Table α) (k : Text) (a : α) (k' : Text) :
    (t.insert k a).get? k' = if k' = k then some a else t.get? k' :=
  lookup_insertEntry k a t.entries k'

@[simp] theorem get?_insert_self (t : Table α) (k : Text) (a : α) :
    (t.insert k a).get? k = some a := by
  rw [get?_insert, if_pos rfl]

@[simp] theorem get?_empty (k : Text) : (empty : Table α).get? k = none := rfl

end Table

end Courseware
