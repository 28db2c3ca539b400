import Courseware.Proofs.Program.Places
import Courseware.Proofs.Text.Canonical

/-!
What a loaded program knows by name.

A label leads to the line that declares it, and a line number to the last line that carries it.
The procedures are read line by line: a line that opens a definition is followed by the body up
to the next `END` line, where nothing else is opened. Of the definitions of one name the last is
known.
-/

namespace Courseware

open Text in
/-- The label that a line declares. -/
lemma label?_of_text {line : Line} {name : Text}
    (h : line.text = 'L' :: ':' :: name ∨ line.text = 'l' :: ':' :: name) (hname : trim name ≠ []) :
    line.label? = some (canonical name) := by
  have hc : canonical name ≠ [] := fun hn => hname (List.map_eq_nil_iff.1 hn)
  unfold Line.label?
  rcases h with h | h <;> rw [h] <;> exact if_neg hc

namespace Program

variable {p : Program} {source : Text}

lemma of_load (h : load source = .ok p) :
    p.lines = Line.readAll source ∧ indexLabels p.lines {} p.lines.zipIdx = .ok p.labels ∧
      p.numbers = indexNumbers p.lines ∧ p.procedures = indexProcedures 0 p.lines {} := by
  unfold load at h
  dsimp only at h
  split at h
  · cases h
  · next labels hlabels =>
    cases h
    exact ⟨rfl, hlabels, rfl, rfl⟩

lemma trim_splitNumber {t : Text} (h : Text.trim t = t) :
    Text.trim (Line.splitNumber t).2 = (Line.splitNumber t).2 := by
  unfold Line.splitNumber
  dsimp only
  split
  · exact h
  · split
    · exact Text.trim_trim _
    · exact h

lemma trim_read? {n : Nat} {raw : Text} {line : Line} (h : Line.read? n raw = some line) :
    Text.trim line.text = line.text := by
  have hsplit := trim_splitNumber (Text.trim_trim raw)
  unfold Line.read? at h
  dsimp only at h
  split at h
  · cases h
  · split at h
    all_goals
      next heq =>
      rw [heq] at hsplit
      split at h
      · cases h
      · cases h
        exact hsplit

/-- The commands of a program have no white space at their ends. -/
lemma trim_of_load (h : load source = .ok p) {i : Nat} {line : Line}
    (hline : p.line? i = some line) : Text.trim line.text = line.text := by
  have hmem : line ∈ p.lines := List.mem_of_getElem? hline
  rw [(of_load h).1] at hmem
  obtain ⟨x, -, hx⟩ := List.mem_filterMap.1 hmem
  exact trim_read? hx

/-! ### Labels -/

variable {all : List Line} {table labels : Table Nat} {ls : List (Line × Nat)}

/-- A label that is known already stays where it is. -/
lemma get?_of_indexLabels (h : indexLabels all table ls = .ok labels) {k : Text} {i : Nat}
    (hk : table.get? k = some i) : labels.get? k = some i := by
  induction ls generalizing table with
  | nil =>
    cases h
    exact hk
  | cons l ls ih =>
    rw [indexLabels] at h
    split at h
    · exact ih h hk
    · next name _ =>
      split at h
      · cases h
      · next hnew =>
        refine ih h ?_
        -- a name that is known would have been refused here
        have hne : k ≠ name := by
          rintro rfl
          rw [hk] at hnew
          cases hnew
        rw [Table.get?_insert, if_neg hne]
        exact hk

lemma get?_indexLabels (h : indexLabels all table ls = .ok labels) {l : Line} {i : Nat}
    (hl : (l, i) ∈ ls) {k : Text} (hk : l.label? = some k) : labels.get? k = some i := by
  induction ls generalizing table with
  | nil => cases hl
  | cons l' ls ih =>
    rw [indexLabels] at h
    rcases List.mem_cons.1 hl with rfl | hl
    · dsimp only at h
      rw [hk] at h
      dsimp only at h
      split at h
      · cases h
      · exact get?_of_indexLabels h (Table.get?_insert_self _ _ _)
    · split at h
      · exact ih h hl
      · split at h
        · cases h
        · exact ih h hl

/-- **A label leads to the line that declares it.** -/
theorem label?_of_load (h : load source = .ok p) {i : Nat} {line : Line}
    (hline : p.line? i = some line) {k name : Text} (hk : line.label? = some k)
    (hname : Text.canonical name = k) : p.label? name = some i := by
  unfold label?
  rw [hname]
  exact get?_indexLabels (of_load h).2.1 (List.mk_mem_zipIdx_iff_getElem?.2 hline) hk

/-! ### Line numbers -/

/-- The last line that carries a number. -/
structure LastNumbered (ls : List Line) (n i : Nat) : Prop where
  carries : ∃ line, ls[i]? = some line ∧ line.number = some n
  last : ∀ j line, i < j → ls[j]? = some line → line.number ≠ some n

lemma lastNumbered_concat_of_ne {ls : List Line} {l : Line} {n i : Nat} (h : l.number ≠ some n) :
    LastNumbered (ls ++ [l]) n i ↔ LastNumbered ls n i := by
  constructor
  · rintro ⟨⟨line, hline, hn⟩, hlast⟩
    rcases Nat.lt_trichotomy i ls.length with hi | rfl | hi
    · -- the line stands among the old ones, since the new one has another number
      rw [List.getElem?_append_left hi] at hline
      refine ⟨⟨line, hline, hn⟩, fun j line' hj hline' => hlast j line' hj ?_⟩
      rw [List.getElem?_append_left (List.getElem?_eq_some_iff.1 hline').1]
      exact hline'
    · rw [List.getElem?_concat_length] at hline
      cases hline
      exact absurd hn h
    · rw [List.getElem?_eq_none (by simp; omega)] at hline
      cases hline
  · rintro ⟨⟨line, hline, hn⟩, hlast⟩
    have hi := (List.getElem?_eq_some_iff.1 hline).1
    refine ⟨⟨line, by rw [List.getElem?_append_left hi]; exact hline, hn⟩, ?_⟩
    intro j line' hj hline'
    rcases Nat.lt_trichotomy j ls.length with hlt | rfl | hgt
    · rw [List.getElem?_append_left hlt] at hline'
      exact hlast j line' hj hline'
    · rw [List.getElem?_concat_length] at hline'
      cases hline'
      exact h
    · rw [List.getElem?_eq_none (by simp; omega)] at hline'
      cases hline'

lemma lastNumbered_concat_self {ls : List Line} {l : Line} {n i : Nat} (h : l.number = some n) :
    LastNumbered (ls ++ [l]) n i ↔ ls.length = i := by
  constructor
  · rintro ⟨⟨line, hline, -⟩, hlast⟩
    have hi := (List.getElem?_eq_some_iff.1 hline).1
    rw [List.length_append, List.length_singleton] at hi
    by_contra hne
    exact hlast ls.length l (by omega) List.getElem?_concat_length h
  · rintro rfl
    refine ⟨⟨l, List.getElem?_concat_length, h⟩, fun j line hj hline => ?_⟩
    rw [List.getElem?_eq_none (by simp; omega)] at hline
    cases hline

lemma indexNumbers_concat (ls : List Line) (l : Line) :
    indexNumbers (ls ++ [l]) =
      match l.number with
      | some n => insertNumber n ls.length (indexNumbers ls)
      | none => indexNumbers ls := by
  unfold indexNumbers
  rw [List.zipIdx_append, List.foldl_append, Nat.zero_add]
  rfl

/-- **A line number leads to the last line that carries it.** -/
theorem lookup_indexNumbers (ls : List Line) (n i : Nat) :
    (indexNumbers ls).lookup n = some i ↔ LastNumbered ls n i := by
  induction ls using List.reverseRecOn generalizing i with
  | nil =>
    refine ⟨fun h => (by cases h), fun h => ?_⟩
    obtain ⟨line, hline, _⟩ := h.carries
    cases hline
  | append_singleton ls l ih =>
    rw [indexNumbers_concat]
    cases hl : l.number with
    | none =>
      rw [lastNumbered_concat_of_ne (by rw [hl]; exact fun h => by cases h)]
      exact ih i
    | some m =>
      dsimp only
      rw [lookup_insertNumber]
      -- the last line decides if it carries the number, else those before it
      by_cases hn : n = m
      · rw [if_pos hn, lastNumbered_concat_self (hl.trans (congrArg some hn.symm)),
          Option.some.injEq]
      · have hne : l.number ≠ some n := by
          rw [hl]
          exact fun h => hn (Option.some.inj h).symm
        rw [if_neg hn, lastNumbered_concat_of_ne hne]
        exact ih i

lemma number?_of_load (h : load source = .ok p) (n i : Nat) :
    p.number? n = some i ↔ LastNumbered p.lines n i := by
  unfold number?
  rw [(of_load h).2.2.1]
  exact lookup_indexNumbers p.lines n i

/-! ### Procedures -/

/-- A definition that is opened at `i` reaches to `e`: to the next `END` line, or to the last
line if there is none. -/
inductive Closes (ls : List Line) (i : Nat) : (e : Nat) → Prop where
  | atEnd {e : Nat} {l : Line} (hi : i < e) (hl : ls[e]? = some l) (hc : l.closes = true)
      (hbody : ∀ j l, i < j → j < e → ls[j]? = some l → l.closes = false) : Closes ls i e
  | atLast {e : Nat} (hi : i ≤ e) (he : e + 1 = ls.length)
      (hbody : ∀ j l, i < j → ls[j]? = some l → l.closes = false) : Closes ls i e

/-- The places outside of all definitions, at which one may be opened. -/
inductive Outside (ls : List Line) : Nat → Prop where
  | start : Outside ls 0
  | line {i : Nat} {l : Line} (h : Outside ls i) (hl : ls[i]? = some l) (ho : l.opens? = none) :
      Outside ls (i + 1)
  | definition {i e : Nat} {l : Line} {d : Text × List Text} (h : Outside ls i)
      (hl : ls[i]? = some l) (ho : l.opens? = some d) (hc : Closes ls i e) : Outside ls (e + 1)

/-- The lines from `i` to `e` define a procedure. -/
structure Defines (ls : List Line) (name : Text) (i e : Nat) : Prop where
  outside : Outside ls i
  opens : ∃ l params, ls[i]? = some l ∧ l.opens? = some (name, params)
  closes : Closes ls i e

namespace Closes

variable {ls : List Line} {i e e' : Nat}

lemma le (h : Closes ls i e) : i ≤ e := by
  cases h with
  | atEnd hi => exact Nat.le_of_lt hi
  | atLast hi => exact hi

/-- There is one place to which a definition reaches. -/
lemma unique (h : Closes ls i e) (h' : Closes ls i e') : e = e' := by
  -- no definition reaches past a line that closes it
  have hend : ∀ {a b l}, i < a → ls[a]? = some l → l.closes = true →
      (∀ j l, i < j → j < b → ls[j]? = some l → l.closes = false) → b ≤ a := by
    intro a b l hi hl hc hbody
    by_contra hlt
    rw [hbody a l hi (by omega) hl] at hc
    cases hc
  cases h with
  | atEnd hi hl hc hbody =>
    cases h' with
    | atEnd hi' hl' hc' hbody' =>
      exact Nat.le_antisymm (hend hi' hl' hc' hbody) (hend hi hl hc hbody')
    | atLast hi' he' hbody' =>
      rw [hbody' _ _ hi hl] at hc
      cases hc
  | atLast hi he hbody =>
    cases h' with
    | atEnd hi' hl' hc' hbody' =>
      rw [hbody _ _ hi' hl'] at hc'
      cases hc'
    | atLast hi' he' hbody' => omega

end Closes

/-- Definitions do not overlap: nothing is opened in the body of another. -/
lemma Outside.lt_of_closes {ls : List Line} {i k e : Nat} {l : Line} {d : Text × List Text}
    (hk : Outside ls k) (hi : Outside ls i) (hl : ls[i]? = some l) (ho : l.opens? = some d)
    (hc : Closes ls i e) (hlt : i < k) : e < k := by
  -- the place before `k` is compared with `i`; a definition before `i` ends before `i` as well
  induction k using Nat.strongRecOn generalizing i e l d with
  | ind k ih =>
    cases hk with
    | start => omega
    | @line j l' hj hl' ho' =>
      rcases Nat.lt_trichotomy i j with hij | rfl | hij
      · have := ih j (by omega) hj hi hl ho hc hij
        omega
      · rw [hl] at hl'
        cases hl'
        rw [ho] at ho'
        cases ho'
      · omega
    | @definition j f l' d' hj hl' ho' hf =>
      have hjf := hf.le
      rcases Nat.lt_trichotomy i j with hij | rfl | hij
      · have := ih j (by omega) hj hi hl ho hc hij
        omega
      · have := hc.unique hf
        omega
      · have := ih i hlt hi hj hl' ho' hf hij
        omega

namespace Defines

variable {ls : List Line} {name : Text} {i j e f : Nat}

lemma lt_length (h : Defines ls name i e) : i < ls.length := by
  obtain ⟨l, params, hl, -⟩ := h.opens
  exact (List.getElem?_eq_some_iff.1 hl).1

lemma opens? (h : Defines ls name i e) {l : Line} (hl : ls[i]? = some l) :
    ∃ params, l.opens? = some (name, params) := by
  obtain ⟨l', params, hl', ho⟩ := h.opens
  rw [hl] at hl'
  cases hl'
  exact ⟨params, ho⟩

/-- A later definition begins behind an earlier one. -/
lemma lt_of_lt (h : Defines ls name i e) (h' : Defines ls name j f) (hij : i < j) : e < j := by
  obtain ⟨l, params, hl, ho⟩ := h.opens
  exact h'.outside.lt_of_closes h.outside hl ho h.closes hij

end Defines

/-- The last definition of a name. -/
structure LastDefines (ls : List Line) (name : Text) (i e : Nat) : Prop where
  defines : Defines ls name i e
  last : ∀ j f, Defines ls name j f → j ≤ i

lemma getElem?_of_drop {ls rest : List Line} {i : Nat} {l : Line} (h : ls.drop i = l :: rest) :
    ls[i]? = some l ∧ ls.length = i + 1 + rest.length ∧ ∀ k, ls[i + 1 + k]? = rest[k]? := by
  have hget : ∀ k, ls[i + k]? = (l :: rest)[k]? := fun k => by rw [← h, List.getElem?_drop]
  refine ⟨hget 0, ?_, fun k => ?_⟩
  · have hlen := congrArg List.length h
    rw [List.length_drop, List.length_cons] at hlen
    omega
  · rw [Nat.add_assoc, Nat.add_comm 1 k]
    exact hget (k + 1)

lemma drop_of_drop {ls rest : List Line} {i : Nat} {l : Line} (h : ls.drop i = l :: rest) :
    ls.drop (i + 1) = rest := by
  rw [← List.drop_drop, h]
  rfl

/-- What is taken for the body of a definition reaches as far as the definition. -/
lemma closes_takeWhile {ls rest body : List Line} {i : Nat} {l : Line}
    (h : ls.drop i = l :: rest) (hb : body = rest.takeWhile (!·.closes)) :
    Closes ls i (if body.length < rest.length then i + body.length + 1 else i + body.length) := by
  obtain ⟨-, hlen, hget⟩ := getElem?_of_drop h
  have hsplit : body ++ rest.dropWhile (!·.closes) = rest := by
    rw [hb, List.takeWhile_append_dropWhile]
  have hbody : ∀ l ∈ body, l.closes = false := by
    intro l hl
    rw [hb] at hl
    simpa using List.mem_takeWhile_imp hl
  have hinside : ∀ j l', i < j → j < i + 1 + body.length → ls[j]? = some l' →
      l'.closes = false := by
    intro j l' hij hj hl'
    obtain ⟨k, rfl⟩ := Nat.exists_eq_add_of_le (show i + 1 ≤ j by omega)
    rw [hget, ← hsplit, List.getElem?_append_left (by omega)] at hl'
    exact hbody l' (List.mem_of_getElem? hl')
  have hend := List.head?_dropWhile_not (fun l : Line => !l.closes) rest
  cases hd : rest.dropWhile (!·.closes) with
  | nil =>
    -- no line closes the definition, so it reaches to the end of the text
    rw [hd, List.append_nil] at hsplit
    rw [hsplit, if_neg (Nat.lt_irrefl _)]
    refine .atLast (Nat.le_add_right _ _) (by omega) fun j l' hij hl' => ?_
    refine hinside j l' hij ?_ hl'
    have hj := (List.getElem?_eq_some_iff.1 hl').1
    have hsame := congrArg List.length hsplit
    omega
  | cons l' tail =>
    rw [hd] at hsplit hend
    -- the first line behind the body closes it
    have hrest : body.length < rest.length := by
      rw [← hsplit, List.length_append, List.length_cons]
      omega
    rw [if_pos hrest, Nat.add_right_comm]
    refine .atEnd (by omega) ?_ (by simpa using hend) hinside
    rw [hget, ← hsplit, List.getElem?_append_right (Nat.le_refl _), Nat.sub_self]
    rfl

/-- The lines behind a definition. -/
lemma drop_of_body {ls rest body : List Line} {i : Nat} {l : Line} (h : ls.drop i = l :: rest)
    (hb : body = rest.takeWhile (!·.closes)) :
    ls.drop ((if body.length < rest.length then i + body.length + 1 else i + body.length) + 1) =
      rest.drop (body.length + 1) := by
  obtain ⟨-, hlen, -⟩ := getElem?_of_drop h
  have hle : body.length ≤ rest.length := hb ▸ (List.takeWhile_prefix _).length_le
  split
  · rw [← drop_of_drop h, List.drop_drop]
    congr 1
    omega
  · rw [List.drop_of_length_le (by omega), List.drop_of_length_le (by omega)]

/-- **Of the definitions of one name the last is known.** -/
theorem get?_indexProcedures {all ls : List Line} {i : Nat} {table : Table Procedure}
    (hls : all.drop i = ls) (hi : Outside all i) (name : Text) :
    (∃ j e q, i ≤ j ∧ LastDefines all name j e ∧
      (indexProcedures i ls table).get? name = some q ∧ q.finish = e) ∨
    ((∀ j e, Defines all name j e → j < i) ∧
      (indexProcedures i ls table).get? name = table.get? name) := by
  fun_induction indexProcedures i ls table with
  | case1 i table =>
    refine .inr ⟨fun j e h => ?_, rfl⟩
    have hj := h.lt_length
    have := List.drop_eq_nil_iff.1 hls
    omega
  | case2 i table l rest ho ih =>
    have hl := (getElem?_of_drop hls).1
    rcases ih (drop_of_drop hls) (hi.line hl ho) with ⟨j, e, q, hj, h⟩ | ⟨h, hget⟩
    · exact .inl ⟨j, e, q, by omega, h⟩
    · refine .inr ⟨fun j e hd => ?_, hget⟩
      have hle := h j e hd
      -- this line opens nothing
      have hne : j ≠ i := by
        rintro rfl
        obtain ⟨params, ho'⟩ := hd.opens? hl
        rw [ho] at ho'
        cases ho'
      omega
  | case3 i table l rest name' params ho body finish ih =>
    have hl := (getElem?_of_drop hls).1
    have hc : Closes all i finish := closes_takeWhile hls rfl
    -- no definition begins inside of this one
    have hbehind : ∀ j e, Defines all name j e → j < finish + 1 → j ≤ i := by
      intro j e hd hj
      by_contra hij
      have := hd.outside.lt_of_closes hi hl ho hc (by omega)
      omega
    rcases ih (drop_of_body hls rfl) (hi.definition hl ho hc) with ⟨j, e, q, hj, h⟩ | ⟨h, hget⟩
    · have := hc.le
      exact .inl ⟨j, e, q, by omega, h⟩
    · rw [Table.get?_insert] at hget
      split at hget
      · next hname =>
        subst hname
        -- no later definition has the name, so this one is the last
        have hd : Defines all name i finish := ⟨hi, ⟨l, params, hl, ho⟩, hc⟩
        exact .inl ⟨i, finish, _, Nat.le_refl i,
          ⟨hd, fun j e hj => hbehind j e hj (h j e hj)⟩, hget, rfl⟩
      · next hname =>
        refine .inr ⟨fun j e hd => ?_, hget⟩
        have hle := hbehind j e hd (h j e hd)
        have hne : j ≠ i := by
          rintro rfl
          obtain ⟨params', ho'⟩ := hd.opens? hl
          rw [ho] at ho'
          cases ho'
          exact hname rfl
        omega

/-- A program knows the last definition of a name. -/
lemma get?_of_defines (h : load source = .ok p) {name : Text} {i e : Nat}
    (hd : Defines p.lines name i e) :
    ∃ j f q, LastDefines p.lines name j f ∧ p.procedures.get? name = some q ∧ q.finish = f := by
  rw [(of_load h).2.2.2]
  rcases @get?_indexProcedures p.lines p.lines 0 {} List.drop_zero .start name with
    ⟨j, f, q, -, h⟩ | ⟨hnone, -⟩
  · exact ⟨j, f, q, h⟩
  · exact absurd (hnone i e hd) (Nat.not_lt_zero i)

end Program

end Courseware
