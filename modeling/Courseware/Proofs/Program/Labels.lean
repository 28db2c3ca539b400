import Courseware.Proofs.Program.Index

/-!
What a program text is loaded into, apart from its procedures and data.

The lines that are kept stand in the order of the text. Their labels are collected in one pass, in
which the table always knows exactly the labels of the lines before: so the first line that
declares a label again is found where it stands, and if there is none, the table knows every label
with its one line.
-/

namespace Courseware

open Text

variable {source : Text}

/-! ### The lines that are kept -/

namespace Line

/-- The place in the text is only put down. -/
lemma read?_eq_map (m n : ℕ) (raw : Text) :
    read? n raw = (read? m raw).map fun l => { l with sourceLine := n } := by
  unfold read?
  dsimp only
  split
  · rfl
  · split
    · split <;> rfl
    · split <;> rfl

lemma sourceLine_of_read? {n : ℕ} {raw : Text} {l : Line} (h : read? n raw = some l) :
    l.sourceLine = n := by
  have hsame := read?_eq_map n n raw
  rw [h] at hsame
  exact congrArg sourceLine (Option.some.inj hsame)

lemma splitNumber_of_none {t : Text} (h : (splitNumber t).1 = none) : (splitNumber t).2 = t := by
  unfold splitNumber at h ⊢
  dsimp only at h ⊢
  split
  · rfl
  · next hdigits =>
    rw [if_neg hdigits] at h
    split
    · next heq =>
      rw [heq] at h
      cases h
    · rfl

lemma text_ne_nil_of_read? {n : ℕ} {raw : Text} {l : Line} (h : read? n raw = some l) :
    l.text ≠ [] := by
  unfold read? at h
  dsimp only at h
  split at h
  · cases h
  · next hne =>
    split at h
    · next body heq =>
      -- without a number, the line is kept whole
      have hbody : body = trim raw := by
        have hwhole := splitNumber_of_none (congrArg Prod.fst heq)
        rwa [heq] at hwhole
      split at h
      · cases h
      · cases h
        rwa [hbody]
    · split at h
      · cases h
      · next hbody =>
        cases h
        exact hbody

/-- A line is kept from the place in the text that it names. -/
lemma mem_readAll_iff {l : Line} :
    l ∈ readAll source ↔
      ∃ i raw, (lines source)[i]? = some raw ∧ l.sourceLine = i + 1 ∧
        read? l.sourceLine raw = some l := by
  unfold readAll
  rw [List.mem_filterMap]
  constructor
  · rintro ⟨⟨raw, i⟩, hmem, hread⟩
    have hplace := sourceLine_of_read? hread
    exact ⟨i, raw, List.mk_mem_zipIdx_iff_getElem?.1 hmem, hplace, hplace ▸ hread⟩
  · rintro ⟨i, raw, hraw, hplace, hread⟩
    rw [hplace] at hread
    exact ⟨(raw, i), List.mk_mem_zipIdx_iff_getElem?.2 hraw, hread⟩

/-- The lines stand in the order of the text. -/
lemma pairwise_readAll (source : Text) :
    (readAll source).Pairwise (·.sourceLine < ·.sourceLine) := by
  have hplaces : (lines source).zipIdx.Pairwise (·.2 < ·.2) := by
    have hrange : (List.range' 0 (lines source).length).Pairwise (· < ·) :=
      List.pairwise_lt_range' 1
    rwa [← List.zipIdx_map_snd, List.pairwise_map] at hrange
  unfold readAll
  rw [List.pairwise_filterMap]
  refine hplaces.imp ?_
  rintro ⟨raw, i⟩ ⟨raw', j⟩ hij l hl l' hl'
  rw [sourceLine_of_read? hl, sourceLine_of_read? hl']
  exact Nat.add_lt_add_right hij 1

end Line

/-! ### Labels -/

namespace Line

/-- The line declares a name, which may be written in any way but must not be blank. -/
def Declares (l : Line) (name : Text) : Prop :=
  trim name ≠ [] ∧ (l.text = 'L' :: ':' :: name ∨ l.text = 'l' :: ':' :: name)

lemma label?_eq_some_iff {l : Line} {k : Text} :
    l.label? = some k ↔ ∃ name, l.Declares name ∧ canonical name = k := by
  constructor
  · intro h
    have hname : ∀ name : Text, (if canonical name = [] then none else some (canonical name)) =
        some k → trim name ≠ [] ∧ canonical name = k := by
      intro name hk
      split at hk
      · cases hk
      · next hne =>
        refine ⟨fun hnil => hne ?_, Option.some.inj hk⟩
        rw [canonical, hnil]
        rfl
    unfold label? at h
    dsimp only at h
    split at h
    · next name htext =>
      obtain ⟨hne, hk⟩ := hname name h
      exact ⟨name, ⟨hne, .inl htext⟩, hk⟩
    · next name htext =>
      obtain ⟨hne, hk⟩ := hname name h
      exact ⟨name, ⟨hne, .inr htext⟩, hk⟩
    · cases h
  · rintro ⟨name, ⟨hne, htext⟩, rfl⟩
    exact label?_of_text htext hne

end Line

namespace Program

variable {p : Program} {ls : List Line} {table labels : Table Nat} {i j : ℕ} {l : Line} {k : Text}

/-- The line at a place declares a name, which is given in the form in which names are compared. -/
def DeclaredAt (ls : List Line) (i : ℕ) (k : Text) : Prop :=
  ∃ l name, ls[i]? = some l ∧ l.Declares name ∧ canonical name = k

lemma declaredAt_iff : DeclaredAt ls i k ↔ ∃ l, ls[i]? = some l ∧ l.label? = some k := by
  simp only [DeclaredAt, Line.label?_eq_some_iff, exists_and_left]

/-- A name is declared twice. -/
structure Repeats (ls : List Line) (i j : ℕ) (k : Text) : Prop where
  lt : i < j
  first : DeclaredAt ls i k
  second : DeclaredAt ls j k

/-- The second line is the first of all that repeats a name, which the first line declared. -/
def FirstRepeat (ls : List Line) (k : Text) (l l' : Line) : Prop :=
  ∃ i j, Repeats ls i j k ∧ ls[i]? = some l ∧ ls[j]? = some l' ∧
    ∀ i' j' k', Repeats ls i' j' k' → j ≤ j'

/-- The table knows exactly the labels of the first `i` lines. -/
def Knows (ls : List Line) (table : Table Nat) (i : ℕ) : Prop :=
  ∀ k j, table.get? k = some j ↔ j < i ∧ DeclaredAt ls j k

/-- So none of these lines repeats a label. -/
lemma Knows.not_repeats (h : Knows ls table i) (hj : j < i) {a : ℕ} : ¬ Repeats ls a j k := by
  intro hrepeats
  have hlt := hrepeats.lt
  have hfirst := (h k a).2 ⟨by omega, hrepeats.first⟩
  have hsecond := (h k j).2 ⟨hj, hrepeats.second⟩
  rw [hfirst, Option.some.injEq] at hsecond
  omega

lemma knows_empty (ls : List Line) : Knows ls {} 0 := by
  intro k j
  constructor
  · intro h
    cases h
  · intro h
    exact absurd h.1 (Nat.not_lt_zero j)

/-- A line without a label. -/
lemma Knows.skip (h : Knows ls table i) (hl : ls[i]? = some l) (hlabel : l.label? = none) :
    Knows ls table (i + 1) := by
  intro k j
  rw [h k j]
  refine ⟨fun hj => ⟨by omega, hj.2⟩, fun hj => ⟨?_, hj.2⟩⟩
  have hne : j ≠ i := by
    rintro rfl
    obtain ⟨l', hl', hk⟩ := declaredAt_iff.1 hj.2
    rw [hl] at hl'
    cases hl'
    rw [hlabel] at hk
    cases hk
  omega

/-- A line with a new label. -/
lemma Knows.insert (h : Knows ls table i) (hl : ls[i]? = some l) (hlabel : l.label? = some k)
    (hnew : table.get? k = none) : Knows ls (table.insert k i) (i + 1) := by
  have hhere : ∀ k', DeclaredAt ls i k' ↔ k' = k := by
    intro k'
    rw [declaredAt_iff, hl]
    simp [hlabel, eq_comm]
  intro k' j
  rw [Table.get?_insert]
  by_cases hk : k' = k
  · subst hk
    rw [if_pos rfl, Option.some.injEq]
    constructor
    · rintro rfl
      exact ⟨Nat.lt_succ_self i, (hhere k').2 rfl⟩
    · rintro ⟨hj, hdeclared⟩
      -- a declaration before would be known
      by_contra hne
      rw [(h k' j).2 ⟨by omega, hdeclared⟩] at hnew
      cases hnew
  · rw [if_neg hk, h k' j]
    refine ⟨fun hj => ⟨by omega, hj.2⟩, fun hj => ⟨?_, hj.2⟩⟩
    have hne : j ≠ i := by
      rintro rfl
      exact hk ((hhere k').1 hj.2)
    omega

lemma DeclaredAt.lt_length (h : DeclaredAt ls i k) : i < ls.length := by
  obtain ⟨l, name, hl, -⟩ := h
  exact (List.getElem?_eq_some_iff.1 hl).1

lemma Knows.all (h : Knows ls table i) (hi : ls.length ≤ i) : Knows ls table ls.length := by
  intro k j
  rw [h k j]
  refine ⟨fun hj => ⟨hj.2.lt_length, hj.2⟩, fun hj => ⟨by omega, hj.2⟩⟩

/-- Either all labels become known, or the first line is found that repeats one. -/
lemma indexLabels_cases (h : Knows ls table i) :
    (∃ labels, indexLabels ls table ((ls.drop i).zipIdx i) = .ok labels ∧
      Knows ls labels ls.length) ∨
    ∃ k l l', FirstRepeat ls k l l' ∧ indexLabels ls table ((ls.drop i).zipIdx i) =
      .error (.duplicateLabel k l.sourceLine l'.sourceLine) := by
  induction hrest : ls.drop i generalizing i table with
  | nil => exact .inl ⟨table, rfl, h.all (List.drop_eq_nil_iff.1 hrest)⟩
  | cons l rest ih =>
    have hl := (getElem?_of_drop hrest).1
    have hdrop := drop_of_drop hrest
    rw [List.zipIdx_cons, indexLabels]
    cases hlabel : l.label? with
    | none => exact ih (h.skip hl hlabel) hdrop
    | some k =>
      dsimp only
      cases hk : table.get? k with
      | none => exact ih (h.insert hl hlabel hk) hdrop
      | some a =>
        -- the label is known, so this line repeats it, and no line before repeats one
        obtain ⟨ha, hdeclared⟩ := (h k a).1 hk
        obtain ⟨l', hl', -⟩ := declaredAt_iff.1 hdeclared
        refine .inr ⟨k, l', l, ⟨a, i, ⟨ha, hdeclared, declaredAt_iff.2 ⟨l, hl, hlabel⟩⟩, hl', hl,
          fun a' b' k' hrepeats => ?_⟩, by simp [hl']⟩
        by_contra hlt
        exact h.not_repeats (by omega) hrepeats

/-- What a loaded program knows of the text it was loaded from. -/
structure Indexed (source : Text) (p : Program) : Prop where
  kept : ∀ l, l ∈ p.lines ↔ ∃ i raw, (Text.lines source)[i]? = some raw ∧
    l.sourceLine = i + 1 ∧ Line.read? l.sourceLine raw = some l
  increasing : p.lines.Pairwise (·.sourceLine < ·.sourceLine)
  trimmed : ∀ l ∈ p.lines, l.text ≠ [] ∧ trim l.text = l.text
  label : ∀ x i, p.label? x = some i ↔ DeclaredAt p.lines i (canonical x)
  number : ∀ n i, p.number? n = some i ↔ LastNumbered p.lines n i

lemma indexed_of_load (h : load source = .ok p) : Indexed source p := by
  obtain ⟨hlines, hlabels, -⟩ := of_load h
  have hknows : Knows p.lines p.labels p.lines.length := by
    have hcases := indexLabels_cases (knows_empty p.lines)
    rw [List.drop_zero, hlabels] at hcases
    rcases hcases with ⟨labels, hok, hknows⟩ | ⟨k, l, l', -, herror⟩
    · cases hok
      exact hknows
    · cases herror
  refine ⟨fun l => ?_, ?_, fun l hl => ⟨?_, ?_⟩, fun x i => ?_, number?_of_load h⟩
  · rw [hlines]
    exact Line.mem_readAll_iff
  · rw [hlines]
    exact Line.pairwise_readAll source
  · rw [hlines, Line.mem_readAll_iff] at hl
    obtain ⟨i, raw, -, -, hread⟩ := hl
    exact Line.text_ne_nil_of_read? hread
  · obtain ⟨i, hi⟩ := List.getElem?_of_mem hl
    exact trim_of_load h hi
  · unfold label?
    rw [hknows]
    exact ⟨And.right, fun hdeclared => ⟨hdeclared.lt_length, hdeclared⟩⟩

/-- Loading fails at the first line that repeats a name, and only there. -/
lemma load_cases (source : Text) :
    ((∃ p, load source = .ok p) ∧ ∀ i j k, ¬ Repeats (Line.readAll source) i j k) ∨
    ∃ k l l', FirstRepeat (Line.readAll source) k l l' ∧
      load source = .error (.duplicateLabel k l.sourceLine l'.sourceLine) := by
  have hcases := indexLabels_cases (knows_empty (Line.readAll source))
  rw [List.drop_zero] at hcases
  unfold load
  dsimp only
  rcases hcases with ⟨labels, hok, hknows⟩ | ⟨k, l, l', hfirst, herror⟩
  · rw [hok]
    exact .inl ⟨⟨_, rfl⟩, fun i j k h => hknows.not_repeats h.second.lt_length h⟩
  · rw [herror]
    exact .inr ⟨k, l, l', hfirst, rfl⟩

/-- **Labels and line numbers are indexed exactly.** Loading fails if and only if a name is declared
twice, and then names the first line that repeats a name, with the one that declared it. Otherwise
the lines that are kept stand in order and are trimmed, a label leads to the line that declares it,
and a line number to the last line that carries it. -/
theorem load_indexes_exactly (source : Text) :
    ((∃ e, load source = .error e) ↔ ∃ i j k, Repeats (Line.readAll source) i j k) ∧
    (∀ k first second, load source = .error (.duplicateLabel k first second) →
      ∃ l l', FirstRepeat (Line.readAll source) k l l' ∧
        first = l.sourceLine ∧ second = l'.sourceLine) ∧
    ∀ p, load source = .ok p → p.lines = Line.readAll source ∧ Indexed source p := by
  refine ⟨?_, ?_, fun p h => ⟨(of_load h).1, indexed_of_load h⟩⟩
  · -- loading succeeds, and nothing is repeated, or it fails at the first repetition
    rcases load_cases source with ⟨⟨p, hload⟩, hnone⟩ | ⟨k, l, l', ⟨i, j, hrepeats, -⟩, hload⟩
    · rw [hload]
      constructor
      · rintro ⟨e, he⟩
        cases he
      · rintro ⟨i, j, k, hrepeats⟩
        exact absurd hrepeats (hnone i j k)
    · exact ⟨fun _ => ⟨i, j, k, hrepeats⟩, fun _ => ⟨_, hload⟩⟩
  · intro k first second h
    rcases load_cases source with ⟨⟨p, hload⟩, -⟩ | ⟨k', l, l', hfirst, hload⟩
    · rw [hload] at h
      cases h
    · rw [hload] at h
      cases h
      exact ⟨l, l', hfirst, rfl, rfl⟩

/-- A name in small letters and capitals on the first, the third and the fourth line, and a text
that is loaded. -/
theorem load_indexes_exactly_repeated :
    (∃ k l l', load "L:a\n\n10 l: A \nL:a".toList = .error (.duplicateLabel k 1 3) ∧
      k = "A".toList ∧ FirstRepeat (Line.readAll "L:a\n\n10 l: A \nL:a".toList) k l l') ∧
    ∃ p, load "# note\nL: b c\n10 END\n10 STOP".toList = .ok p ∧
      Indexed "# note\nL: b c\n10 END\n10 STOP".toList p ∧ p.label? " B c".toList = some 0 ∧
      p.number? 10 = some 2 := by
  constructor
  · have hload : load "L:a\n\n10 l: A \nL:a".toList =
        .error (.duplicateLabel "A".toList 1 3) := rfl
    obtain ⟨l, l', hfirst, -⟩ := (load_indexes_exactly _).2.1 _ _ _ hload
    exact ⟨_, l, l', hload, rfl, hfirst⟩
  · obtain ⟨p, hload, hlabel, hnumber⟩ : ∃ p,
        load "# note\nL: b c\n10 END\n10 STOP".toList = .ok p ∧
        p.label? " B c".toList = some 0 ∧ p.number? 10 = some 2 := ⟨_, rfl, rfl, rfl⟩
    exact ⟨p, hload, ((load_indexes_exactly _).2.2 p hload).2, hlabel, hnumber⟩

end Program

end Courseware
