import Courseware.Proofs.Text.Canonical
import Courseware.Text.Letter

/-!
Words and white space.

Trimming at one end does not disturb the other. The words of a text are told by its beginning:
white space is passed over, and anything else begins a word that reaches to the next white space.
-/

namespace Courseware.Text

variable {c : Char} {t : Text}

/-! ### Trimming -/

lemma trimStart_cons_of_blank (h : isBlank c = true) : trimStart (c :: t) = trimStart t :=
  List.dropWhile_cons_of_pos h

lemma trimStart_cons_of_not_blank (h : isBlank c = false) : trimStart (c :: t) = c :: t :=
  List.dropWhile_cons_of_neg (by simp [h])

lemma trimEnd_cons (c : Char) (t : Text) :
    trimEnd (c :: t) = if trimEnd t = [] ∧ isBlank c = true then [] else c :: trimEnd t := by
  unfold trimEnd
  rw [List.reverse_cons, List.dropWhile_append]
  cases hd : t.reverse.dropWhile isBlank with
  | nil => by_cases hc : isBlank c = true <;> simp [hc]
  | cons d r => simp

lemma trimEnd_cons_of_not_blank (h : isBlank c = false) : trimEnd (c :: t) = c :: trimEnd t := by
  rw [trimEnd_cons, if_neg (by simp [h])]

lemma trimStart_trimEnd_comm (t : Text) : trimStart (trimEnd t) = trimEnd (trimStart t) := by
  induction t with
  | nil => rfl
  | cons c t ih =>
    by_cases hc : isBlank c = true
    · rw [trimStart_cons_of_blank hc, ← ih, trimEnd_cons]
      split
      · next h => rw [h.1]
      · rw [trimStart_cons_of_blank hc]
    · have hc : isBlank c = false := by simpa using hc
      rw [trimStart_cons_of_not_blank hc, trimEnd_cons_of_not_blank hc,
        trimStart_cons_of_not_blank hc]

lemma trim_trimEnd (t : Text) : trim (trimEnd t) = trim t := by
  unfold trim
  rw [trimStart_trimEnd_comm]
  exact List.rdropWhile_idempotent isBlank _

lemma canonical_trim (t : Text) : canonical (trim t) = canonical t := by
  unfold canonical
  rw [trim_trim]

/-- A text that is trimmed begins with something else than white space. -/
lemma head_of_trimmed (h : trim (c :: t) = c :: t) : isBlank c = false := by
  by_contra hc
  have hc : isBlank c = true := by simpa using hc
  have hlen : (trim (c :: t)).length ≤ t.length := by
    unfold trim
    rw [trimStart_cons_of_blank hc]
    have hstart := (List.dropWhile_sublist isBlank (l := t)).length_le
    have hend := (List.rdropWhile_prefix isBlank (trimStart t)).length_le
    exact Nat.le_trans hend hstart
  rw [h, List.length_cons] at hlen
  omega

/-! ### Words -/

lemma pieces_eq (p : Char → Bool) (t : Text) :
    pieces p t = t.takeWhile (!p ·) ::
      match t.dropWhile (!p ·) with
      | [] => []
      | _ :: r => pieces p r := by
  induction t with
  | nil => rfl
  | cons c t ih =>
    rw [pieces]
    by_cases hc : p c = true
    · rw [if_pos hc, List.takeWhile_cons_of_neg (by simp [hc]),
        List.dropWhile_cons_of_neg (by simp [hc])]
    · rw [if_neg hc, ih, List.takeWhile_cons_of_pos (by simp [hc]),
        List.dropWhile_cons_of_pos (by simp [hc])]

@[simp] lemma words_nil : words [] = [] := rfl

lemma words_cons_of_blank (h : isBlank c = true) : words (c :: t) = words t := by
  unfold words
  rw [pieces, if_pos h]
  rfl

/-- What follows a word begins with white space. -/
lemma isBlank_of_dropWhile {b : Char} {r : Text} (h : t.dropWhile (!isBlank ·) = b :: r) :
    isBlank b = true := by
  have hhead := List.head?_dropWhile_not (!isBlank ·) t
  rw [h] at hhead
  simpa using hhead

lemma words_cons_of_not_blank (h : isBlank c = false) :
    words (c :: t) = (c :: t.takeWhile (!isBlank ·)) :: words (t.dropWhile (!isBlank ·)) := by
  unfold words
  rw [pieces_eq, List.takeWhile_cons_of_pos (by simp [h]), List.dropWhile_cons_of_pos (by simp [h]),
    List.filter_cons_of_pos (by simp)]
  cases hd : t.dropWhile (!isBlank ·) with
  | nil => rfl
  | cons b r =>
    rw [pieces, if_pos (isBlank_of_dropWhile hd)]
    rfl

lemma words_of_not_blank (hne : t ≠ []) (h : ∀ c ∈ t, isBlank c = false) : words t = [t] := by
  obtain ⟨c, r, rfl⟩ := List.exists_cons_of_ne_nil hne
  have hr : ∀ d ∈ r, (!isBlank d) = true := fun d hd => by simp [h d (List.mem_cons_of_mem c hd)]
  rw [words_cons_of_not_blank (h c List.mem_cons_self), List.takeWhile_eq_self_iff.2 hr,
    List.dropWhile_eq_nil_iff.2 hr, words_nil]

lemma not_of_mem_pieces {p : Char → Bool} {s : Text} (hs : s ∈ pieces p t) :
    ∀ d ∈ s, p d = false := by
  induction t generalizing s with
  | nil =>
    obtain rfl := List.mem_singleton.1 hs
    exact fun d hd => by cases hd
  | cons c t ih =>
    rw [pieces] at hs
    split at hs
    · rcases List.mem_cons.1 hs with rfl | hs
      · exact fun d hd => by cases hd
      · exact ih hs
    · next hc =>
      have hc : p c = false := by simpa using hc
      rw [pieces_eq] at hs ih
      rcases List.mem_cons.1 hs with rfl | hs
      · exact List.forall_mem_cons.2 ⟨hc, ih List.mem_cons_self⟩
      · exact ih (List.mem_cons_of_mem _ hs)

/-- What remains without white space at its start begins as its first word does. -/
lemma trimStart_of_words {w : Text} {ws : List Text} (h : words t = w :: ws) :
    ∃ c v r, w = c :: v ∧ trimStart t = c :: r := by
  induction t with
  | nil => cases h
  | cons c t ih =>
    by_cases hc : isBlank c = true
    · rw [words_cons_of_blank hc] at h
      rw [trimStart_cons_of_blank hc]
      exact ih h
    · have hc : isBlank c = false := by simpa using hc
      rw [words_cons_of_not_blank hc] at h
      exact ⟨c, _, t, (List.cons.inj h).1.symm, trimStart_cons_of_not_blank hc⟩

/-- The case of the letters does not make white space. -/
lemma not_blank_of_upper {s : Text} (h : upper s = upper t) (ht : ∀ c ∈ t, isBlank c = false) :
    ∀ c ∈ s, isBlank c = false := by
  intro c hc
  obtain ⟨d, hd, hcd⟩ := List.mem_map.1 (h ▸ List.mem_map_of_mem hc : c.toUpper ∈ upper t)
  rw [← isBlank_toUpper, ← hcd, isBlank_toUpper]
  exact ht d hd

/-- A name that is a word up to the case of its letters is compared as it stands. -/
lemma canonical_of_mem_words {w n : Text} (hw : w ∈ words t) (hn : upper n = upper w) :
    canonical n = upper w := by
  have hblank : ∀ c ∈ n, isBlank c = false :=
    not_blank_of_upper hn (not_of_mem_pieces (List.mem_of_mem_filter hw))
  have hstart : trimStart n = n :=
    List.dropWhile_eq_self_iff.2 fun h => by simp [hblank _ (List.getElem_mem h)]
  have hend : n.reverse.dropWhile isBlank = n.reverse :=
    List.dropWhile_eq_self_iff.2 fun h => by
      simp only [hblank _ (List.mem_reverse.1 (List.getElem_mem h)), Bool.false_eq_true,
        not_false_eq_true]
  have htrim : trim n = n := by
    rw [trim, hstart, trimEnd, hend, List.reverse_reverse]
  rw [canonical, htrim, hn]

lemma pieces_of_not {p : Char → Bool} (h : ∀ c ∈ t, p c = false) : pieces p t = [t] := by
  have hkeep : ∀ c ∈ t, (!p c) = true := fun c hc => by simp [h c hc]
  rw [pieces_eq, List.takeWhile_eq_self_iff.2 hkeep, List.dropWhile_eq_nil_iff.2 hkeep]

lemma pieces_append_cons {p : Char → Bool} (h : p c = true) (s : Text) :
    pieces p (s ++ c :: t) = pieces p s ++ pieces p t := by
  induction s with
  | nil => simp [pieces, h]
  | cons d s ih =>
    rw [List.cons_append, pieces, pieces, ih]
    split
    · rfl
    · rw [pieces_eq p s]
      rfl

lemma words_append_cons (h : isBlank c = true) (s : Text) :
    words (s ++ c :: t) = words s ++ words t := by
  unfold words
  rw [pieces_append_cons h, List.filter_append]

/-- The text of two words and more: a word, white space, and the rest with the other words. -/
lemma of_words_cons_cons {v w : Text} {ws : List Text} (h : words (c :: t) = v :: w :: ws)
    (hc : isBlank c = false) :
    ∃ b r, c :: t = v ++ b :: r ∧ isBlank b = true ∧ words r = w :: ws := by
  rw [words_cons_of_not_blank hc] at h
  obtain ⟨rfl, hrest⟩ := List.cons.inj h
  cases hd : t.dropWhile (!isBlank ·) with
  | nil =>
    rw [hd] at hrest
    cases hrest
  | cons b r =>
    have hb := isBlank_of_dropWhile hd
    refine ⟨b, r, ?_, hb, ?_⟩
    · rw [← hd, List.cons_append, List.takeWhile_append_dropWhile]
    · rw [← hrest, hd, words_cons_of_blank hb]

/-! ### Letters -/

/-- White space from 128 on. -/
def wideBlanks : List Nat :=
  [0x85, 0xA0, 0x1680, 0x2000, 0x2001, 0x2002, 0x2003, 0x2004, 0x2005, 0x2006, 0x2007, 0x2008,
    0x2009, 0x200A, 0x2028, 0x2029, 0x202F, 0x205F, 0x3000]

lemma inside_eq_foldl (points : Array Nat) (n : Nat) :
    inside points n = points.toList.foldl (fun b p => if p ≤ n then !b else b) false := by
  rw [inside, ← Array.foldl_toList]

lemma not_inside_of_wideBlanks :
    ∀ n ∈ wideBlanks, inside alphabeticPoints n = false ∧ inside numericPoints n = false := by
  -- on lists the tables are looked through in one pass
  simp only [inside_eq_foldl]
  decide +kernel

/-- White space is no part of a name. -/
lemma isNameChar_of_isBlank (h : isBlank c = true) : isNameChar c = false := by
  have hcases : c.toNat ∈ [9, 10, 11, 12, 13, 32] ∨ 128 ≤ c.toNat ∧ c.toNat ∈ wideBlanks := by
    simp only [isBlank, Bool.or_eq_true, Bool.and_eq_true, beq_iff_eq, decide_eq_true_eq] at h
    simp only [wideBlanks, List.mem_cons, List.not_mem_nil, or_false]
    omega
  rcases hcases with hmem | ⟨hwide, hmem⟩
  · have hall : ∀ n ∈ [9, 10, 11, 12, 13, 32], isNameChar (Char.ofNat n) = false := by decide
    rw [← Char.ofNat_toNat c]
    exact hall _ hmem
  · obtain ⟨ha, hn⟩ := not_inside_of_wideBlanks _ hmem
    have hlarge : ¬ c.toNat < 128 := by omega
    have hline : c ≠ '_' := by
      rintro rfl
      exact absurd hwide (by decide)
    simp [isNameChar, isAlphanumeric, isAlphabetic, isNumeric, if_neg hlarge, ha, hn, hline]

lemma eq_or_of_toUpper {d : Char} (h : c.toUpper = d) : c = d ∨ c.toNat = d.toNat + 32 := by
  by_cases hc : c.isLower = true
  · obtain ⟨hlo, hhi⟩ := isLower_iff.1 hc
    refine .inr ?_
    rw [← h, toNat_toUpper, if_pos hc]
    omega
  · rw [toUpper_of_not_isLower hc] at h
    exact .inl h

end Courseware.Text
