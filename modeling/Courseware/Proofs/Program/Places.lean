import Courseware.Program.Loading
import Mathlib.Tactic.Lemma

/-!
The places that a loaded program knows by a label, a line number or the name of a procedure.
All of them are places of its lines.
-/

namespace Courseware.Program

/-- Labels, line numbers and procedures lead to lines of the program. -/
structure Placed (p : Program) : Prop where
  label : ∀ {name i}, p.label? name = some i → i < p.size
  number : ∀ {n i}, p.number? n = some i → i < p.size
  procedure : ∀ {name q}, p.procedure? name = some q → q.finish < p.size

lemma Placed.target {p : Program} (hp : p.Placed) {t : Text} {i : Nat}
    (h : p.target? t = some i) : i < p.size := by
  unfold target? at h
  split at h
  · exact hp.number h
  · exact hp.label h

lemma indexLabels_lt {all : List Line} {n : Nat} {ls : List (Line × Nat)} {table labels : Table Nat}
    (h : indexLabels all table ls = .ok labels) (hls : ∀ l ∈ ls, l.2 < n)
    (ht : ∀ k i, table.get? k = some i → i < n) {k : Text} {i : Nat}
    (hk : labels.get? k = some i) : i < n := by
  induction ls generalizing table with
  | nil =>
    cases h
    exact ht k i hk
  | cons l rest ih =>
    have hrest : ∀ l ∈ rest, l.2 < n := fun l' hl' => hls l' (List.mem_cons_of_mem l hl')
    rw [indexLabels] at h
    split at h
    · exact ih h hrest ht
    · next name _ =>
      split at h
      · cases h
      · refine ih h hrest fun k' j hj => ?_
        rw [Table.get?_insert] at hj
        split at hj
        · cases hj
          exact hls l List.mem_cons_self
        · exact ht k' j hj

lemma lookup_insertNumber (n i k : Nat) (table : List (Nat × Nat)) :
    (insertNumber n i table).lookup k = if k = n then some i else table.lookup k := by
  by_cases hk : k = n
  · subst hk
    rw [if_pos rfl]
    -- before a larger number, in place of the same number, or further on
    induction table with
    | nil => rw [insertNumber, List.lookup_cons_self]
    | cons entry table ih =>
      rw [insertNumber]
      split
      · exact List.lookup_cons_self
      · split
        · exact List.lookup_cons_self
        · next hne => rw [List.lookup_cons, beq_eq_false_iff_ne.2 hne, ih]
  · have hb := beq_eq_false_iff_ne.2 hk
    rw [if_neg hk]
    induction table with
    | nil => rw [insertNumber, List.lookup_cons, hb]
    | cons entry table ih =>
      rw [insertNumber]
      split
      · rw [List.lookup_cons, hb]
      · split
        · next heq => rw [List.lookup_cons, List.lookup_cons, ← heq, hb]
        · rw [List.lookup_cons, List.lookup_cons, ih]

lemma lookup_foldl_lt {size k i : Nat} {entries : List (Line × Nat)} {table : List (Nat × Nat)}
    (hls : ∀ l ∈ entries, l.2 < size) (ht : ∀ k i, table.lookup k = some i → i < size)
    (h : (entries.foldl (fun table (l, i) =>
      match l.number with
      | some n => insertNumber n i table
      | none => table) table).lookup k = some i) : i < size := by
  induction entries generalizing table with
  | nil => exact ht k i h
  | cons l rest ih =>
    refine ih (fun l' hl' => hls l' (List.mem_cons_of_mem l hl')) (fun k' j hj => ?_) h
    dsimp only at hj
    split at hj
    · rw [lookup_insertNumber] at hj
      split at hj
      · cases hj
        exact hls l List.mem_cons_self
      · exact ht k' j hj
    · exact ht k' j hj

lemma indexNumbers_lt {ls : List Line} {k i : Nat} (h : (indexNumbers ls).lookup k = some i) :
    i < ls.length := by
  refine lookup_foldl_lt (fun l hl => List.snd_lt_of_mem_zipIdx hl) ?_ h
  intro k i hk
  cases hk

/-- A definition ends at one of the lines. -/
lemma indexProcedures_lt {n i : Nat} {ls : List Line} {table : Table Procedure}
    (hn : i + ls.length ≤ n) (ht : ∀ k q, table.get? k = some q → q.finish < n) {k : Text}
    {q : Procedure} (h : (indexProcedures i ls table).get? k = some q) : q.finish < n := by
  fun_induction indexProcedures i ls table with
  | case1 => exact ht k q h
  | case2 i table l rest _ ih =>
    rw [List.length_cons] at hn
    exact ih (by omega) ht h
  | case3 i table l rest name params _ body finish ih =>
    rw [List.length_cons] at hn
    have hbody : body.length ≤ rest.length := (List.takeWhile_prefix _).length_le
    -- the line that ends the definition is not among those after it
    have hfinish : finish < n ∧ finish + 1 + (rest.drop (body.length + 1)).length ≤ n := by
      rw [List.length_drop]
      unfold finish
      split <;> omega
    refine ih hfinish.2 (fun k' q' hq => ?_) h
    rw [Table.get?_insert] at hq
    split at hq
    · cases hq
      exact hfinish.1
    · exact ht k' q' hq

/-- **A loaded program knows only places of its lines.** -/
theorem placed_of_load {source : Text} {p : Program} (h : load source = .ok p) : p.Placed := by
  unfold load at h
  dsimp only at h
  split at h
  · cases h
  · next labels hlabels =>
    cases h
    exact
      { label := indexLabels_lt hlabels (fun l hl => List.snd_lt_of_mem_zipIdx hl)
          fun k i hk => by cases hk
        number := indexNumbers_lt
        procedure := indexProcedures_lt (Nat.le_of_eq (Nat.zero_add _)) fun k q hk => by cases hk }

end Courseware.Program
