import Mathlib.Logic.Relation
import Courseware.Proofs.Program.Labels
import Courseware.Proofs.Text.Trimming

/-!
The layout of a program text does not matter.

A text may be laid out anew: idle lines are put between its lines, the lines get white space at
their ends, and line feeds a carriage return. What is kept of a text is the same before and after
each such step, and everything that is loaded is made from what is kept, apart from the places in
the text.
-/

namespace Courseware

open Text

namespace Line

/-- The line without its place in the source text. -/
def unplaced (l : Line) : Line := { l with sourceLine := 0 }

lemma read?_congr {s t : Text} (h : trim s = trim t) (n : ℕ) : read? n s = read? n t := by
  unfold read?
  rw [h]

lemma map_unplaced_read? (n : ℕ) (raw : Text) : (read? n raw).map unplaced = read? 0 raw :=
  (read?_eq_map n 0 raw).symm

/-- A comment that begins with no digit is left out. -/
lemma read?_of_comment {raw : Text} (hc : isComment (trim raw) = true)
    (hdigit : ∀ c ∈ (trim raw).head?, Number.isDigit c = false) (n : ℕ) : read? n raw = none := by
  have hdigits : (trim raw).takeWhile Number.isDigit = [] := by
    cases ht : trim raw with
    | nil => rfl
    | cons c t =>
      rw [ht] at hdigit
      exact List.takeWhile_cons_of_neg (by simp [hdigit c rfl])
  have hsplit : splitNumber (trim raw) = (none, trim raw) := if_pos (.inl hdigits)
  unfold read?
  dsimp only
  rw [hsplit]
  dsimp only
  rw [if_pos hc, ite_self]

lemma isComment_of_firstWord {t : Text} (h : sameWord (firstWord t) "REM".toList = true) :
    isComment t = true := by
  unfold isComment
  split
  · rfl
  · rfl
  · rfl
  · rfl
  · exact h

end Line

/-- The label that is declared twice. -/
def LoadError.label : LoadError → Text
  | duplicateLabel name _ _ => name

namespace Program

variable {s t before after line : Text}

/-! ### What is kept of a text -/

/-- The lines of a text that are kept, without their places. -/
def kept (t : Text) : List Line := (pieces (· == '\n') t).filterMap (Line.read? 0)

lemma kept_append_newline (s t : Text) : kept (s ++ '\n' :: t) = kept s ++ kept t := by
  unfold kept
  rw [pieces_append_cons (by rfl), List.filterMap_append]

lemma kept_nil : kept [] = [] := rfl

lemma kept_newline_cons (t : Text) : kept ('\n' :: t) = kept t := kept_append_newline [] t

lemma kept_of_not_mem (h : '\n' ∉ t) : kept t = (Line.read? 0 t).toList := by
  have hpieces : pieces (· == '\n') t = [t] :=
    pieces_of_not fun c hc => beq_eq_false_iff_ne.2 fun he => h (he ▸ hc)
  unfold kept
  rw [hpieces]
  cases hread : Line.read? 0 t <;> simp [hread]

/-- A text is read up to a place where a line begins, and from there on. -/
def Begins (before : Text) : Prop := before = [] ∨ ∃ b, before = b ++ ['\n']

lemma kept_append_of_begins (h : Begins before) (t : Text) :
    kept (before ++ t) = kept before ++ kept t := by
  rcases h with rfl | ⟨b, rfl⟩
  · rfl
  · rw [List.append_assoc, List.singleton_append, kept_append_newline, kept_append_newline,
      kept_nil, List.append_nil]

lemma exists_last_line (t : Text) :
    ∃ before line, t = before ++ line ∧ Begins before ∧ '\n' ∉ line := by
  induction t with
  | nil => exact ⟨[], [], rfl, .inl rfl, by simp⟩
  | cons c t ih =>
    obtain ⟨before, line, rfl, hb, hline⟩ := ih
    rcases hb with rfl | ⟨b, rfl⟩
    · by_cases hc : c = '\n'
      · exact ⟨[c], line, rfl, .inr ⟨[], by rw [hc]; rfl⟩, hline⟩
      · refine ⟨[], c :: line, rfl, .inl rfl, ?_⟩
        simp [hline, Ne.symm hc]
    · exact ⟨c :: (b ++ ['\n']), line, rfl, .inr ⟨c :: b, rfl⟩, hline⟩

/-- White space in front of a line is not kept. -/
lemma kept_blank_append {b : Text} (hb : b.all isBlank = true) (t : Text) :
    kept (b ++ t) = kept t := by
  induction b with
  | nil => rfl
  | cons c b ih =>
    rw [List.all_cons, Bool.and_eq_true] at hb
    rw [List.cons_append, ← ih hb.2]
    by_cases hc : c = '\n'
    · rw [hc, kept_newline_cons]
    · have htrim : ∀ raw, trim (c :: raw) = trim raw :=
        trim_blank_append (b := [c]) (by simpa using hb.1)
      unfold kept
      rw [pieces, if_neg (by simpa using hc), pieces_eq]
      dsimp only
      rw [List.filterMap_cons, List.filterMap_cons, Line.read?_congr (htrim _)]

/-- White space behind a line is not kept. -/
lemma kept_append_blank {b : Text} (hb : b.all isBlank = true) (t : Text) :
    kept (t ++ b) = kept t := by
  induction b generalizing t with
  | nil => rw [List.append_nil]
  | cons c b ih =>
    rw [List.all_cons, Bool.and_eq_true] at hb
    rw [List.append_cons, ih hb.2]
    by_cases hc : c = '\n'
    · rw [hc, kept_append_newline, kept_nil, List.append_nil]
    · -- the last line ends in other white space, and is trimmed
      obtain ⟨before, line, rfl, hbefore, hline⟩ := exists_last_line t
      have htrim : trim (line ++ [c]) = trim line := trim_append_blank (by simpa using hb.1) line
      have hlast : '\n' ∉ line ++ [c] := by simp [hline, Ne.symm hc]
      rw [List.append_assoc, kept_append_of_begins hbefore, kept_append_of_begins hbefore,
        kept_of_not_mem hlast, kept_of_not_mem hline, Line.read?_congr htrim]

/-- A line may end before this. -/
def Ends (after : Text) : Prop :=
  after = [] ∨ ∃ r, after = '\n' :: r ∨ after = '\r' :: '\n' :: r

lemma kept_append_of_ends (h : Ends after) (t : Text) :
    kept (t ++ after) = kept t ++ kept after := by
  rcases h with rfl | ⟨r, rfl | rfl⟩
  · rw [kept_nil, List.append_nil, List.append_nil]
  · rw [kept_append_newline, kept_newline_cons]
  · have hreturn : ∀ t, kept (t ++ '\r' :: '\n' :: r) = kept t ++ kept r := by
      intro t
      rw [List.append_cons, kept_append_newline, kept_append_blank rfl]
    rw [hreturn t, ← List.nil_append ('\r' :: '\n' :: r), hreturn [], kept_nil, List.nil_append]

/-! ### Idle lines -/

/-- A line on which there is nothing to execute: it is blank, or a comment. -/
inductive Idle : Text → Prop where
  | blank (b : Text) (hb : b.all isBlank = true) : Idle b
  | sign (sign rest : Text) (hsign : sign ∈ ["#".toList, "//".toList, ";".toList, "'".toList])
      (hrest : '\n' ∉ rest) : Idle (sign ++ rest)
  | remark (word rest : Text) (hword : sameWord word "REM".toList = true)
      (hgap : ∀ c ∈ rest.head?, isBlank c = true) (hrest : '\n' ∉ rest) : Idle (word ++ rest)

/-- Nothing is kept of a comment, whatever it begins with. -/
lemma kept_of_comment {w rest : Text} (hne : w ≠ []) (hblank : ∀ c ∈ w, isBlank c = false)
    (hdigit : ∀ c ∈ w.head?, Number.isDigit c = false)
    (hcomment : Line.isComment (w ++ trimEnd rest) = true) (hrest : '\n' ∉ rest) :
    kept (w ++ rest) = [] := by
  have htrim : trim (w ++ rest) = w ++ trimEnd rest := trim_append_of_not_blank hne hblank rest
  have hline : '\n' ∉ w ++ rest := by
    rw [List.mem_append, not_or]
    refine ⟨fun hmem => ?_, hrest⟩
    cases hblank _ hmem
  have hhead : ∀ c ∈ (trim (w ++ rest)).head?, Number.isDigit c = false := by
    rw [htrim, List.head?_append_of_ne_nil w hne]
    exact hdigit
  rw [kept_of_not_mem hline, Line.read?_of_comment (htrim ▸ hcomment) hhead, Option.toList_none]

lemma kept_sign {sign rest : Text}
    (hsign : sign ∈ ["#".toList, "//".toList, ";".toList, "'".toList]) (hrest : '\n' ∉ rest) :
    kept (sign ++ rest) = [] := by
  simp only [List.mem_cons, List.not_mem_nil, or_false] at hsign
  have hblank : sign.all (!isBlank ·) = true := by rcases hsign with rfl | rfl | rfl | rfl <;> rfl
  refine kept_of_comment ?_ (by simpa using hblank) ?_ ?_ hrest
  · rcases hsign with rfl | rfl | rfl | rfl <;> exact List.cons_ne_nil _ _
  · rcases hsign with rfl | rfl | rfl | rfl <;> rintro c ⟨⟩ <;> rfl
  · rcases hsign with rfl | rfl | rfl | rfl <;> rfl

/-- A word in front of white space is the first word. -/
lemma firstWord_append {word rest : Text} (hne : word ≠ []) (hword : ∀ c ∈ word, isBlank c = false)
    (hgap : ∀ c ∈ rest.head?, isBlank c = true) : firstWord (word ++ rest) = word := by
  unfold firstWord
  cases rest with
  | nil => rw [List.append_nil, words_of_not_blank hne hword, List.headD_cons]
  | cons c r =>
    rw [words_append_cons (hgap c rfl), words_of_not_blank hne hword]
    rfl

lemma kept_remark {word rest : Text} (hword : sameWord word "REM".toList = true)
    (hgap : ∀ c ∈ rest.head?, isBlank c = true) (hrest : '\n' ∉ rest) :
    kept (word ++ rest) = [] := by
  have hupper : upper word = ['R', 'E', 'M'] := beq_iff_eq.1 hword
  obtain ⟨c, r, rfl⟩ : ∃ c r, word = c :: r := by
    refine List.exists_cons_of_ne_nil fun hnil => ?_
    rw [hnil] at hupper
    cases hupper
  have hletters : "REM".toList.all (!isBlank ·) = true := rfl
  have hblank : ∀ d ∈ c :: r, isBlank d = false :=
    not_blank_of_upper (beq_iff_eq.1 hword) (by simpa using hletters)
  -- the keyword is no line number
  have hdigit : Number.isDigit c = false := by
    rcases eq_or_of_toUpper (List.cons.inj hupper).1 with rfl | hc
    · rfl
    · simp [Number.isDigit, hc]
  have hgap' : ∀ d ∈ (trimEnd rest).head?, isBlank d = true := by
    obtain ⟨tail, htail⟩ := trimEnd_prefix_self rest
    intro d hd
    refine hgap d ?_
    rw [← htail, List.head?_append, hd]
    rfl
  refine kept_of_comment (List.cons_ne_nil c r) hblank ?_ ?_ hrest
  · rintro d ⟨⟩
    exact hdigit
  · refine Line.isComment_of_firstWord ?_
    rw [firstWord_append (List.cons_ne_nil c r) hblank hgap']
    exact hword

/-- Nothing is kept of an idle line. -/
lemma kept_of_idle (h : Idle line) : kept line = [] := by
  cases h with
  | blank b hb => rw [← List.append_nil line, kept_blank_append hb, kept_nil]
  | sign sign rest hsign hrest => exact kept_sign hsign hrest
  | remark word rest hword hgap hrest => exact kept_remark hword hgap hrest

/-! ### Changes of the layout -/

/-- One change of the layout: an idle line is put above or below a line, or behind the last line
feed; a line gets white space at one of its ends; or a line feed gets a carriage return. -/
inductive Relaid : Text → Text → Prop where
  | above (before line after : Text) (hline : Idle line) (hbegins : Begins before) :
      Relaid (before ++ after) (before ++ (line ++ '\n' :: after))
  | below (before line after : Text) (hline : Idle line) (hends : Ends after) :
      Relaid (before ++ after) (before ++ '\n' :: (line ++ after))
  | last (before line : Text) (hline : Idle line) (hbegins : Begins before) :
      Relaid before (before ++ line)
  | padStart (before b after : Text) (hb : b.all isBlank = true) (hbegins : Begins before) :
      Relaid (before ++ after) (before ++ (b ++ after))
  | padEnd (before b after : Text) (hb : b.all isBlank = true) (hends : Ends after) :
      Relaid (before ++ after) (before ++ (b ++ after))
  | carriageReturn (before after : Text) :
      Relaid (before ++ '\n' :: after) (before ++ '\r' :: '\n' :: after)

/-- One change leaves what is kept. -/
lemma Relaid.kept_eq (h : Relaid s t) : kept t = kept s := by
  cases h with
  | above before line after hline hbegins =>
    rw [kept_append_of_begins hbegins, kept_append_of_begins hbegins, kept_append_newline,
      kept_of_idle hline, List.nil_append]
  | below before line after hline hends =>
    rw [kept_append_newline, kept_append_of_ends hends, kept_append_of_ends hends,
      kept_of_idle hline, List.nil_append]
  | last before line hline hbegins =>
    rw [kept_append_of_begins hbegins, kept_of_idle hline, List.append_nil]
  | padStart before b after hb hbegins =>
    rw [kept_append_of_begins hbegins, kept_append_of_begins hbegins, kept_blank_append hb]
  | padEnd before b after hb hends =>
    rw [← List.append_assoc, kept_append_of_ends hends, kept_append_of_ends hends,
      kept_append_blank hb]
  | carriageReturn before after =>
    rw [List.append_cons, kept_append_newline, kept_append_newline, kept_append_blank rfl]

/-- Any number of changes leave what is kept. -/
lemma kept_of_relaid (h : Relation.ReflTransGen Relaid s t) : kept t = kept s := by
  induction h with
  | refl => rfl
  | tail _ hstep ih => exact hstep.kept_eq.trans ih

/-! ### What is made from the lines -/

lemma trim_dropReturn (t : Text) : trim (dropReturn t) = trim t := by
  unfold dropReturn
  split
  · next h =>
    obtain ⟨r, rfl⟩ := List.getLast?_eq_some_iff.1 h
    rw [List.dropLast_concat]
    exact (trim_append_blank rfl r).symm
  · rfl

/-- Carriage returns and a missing last line make no difference to what is kept. -/
lemma filterMap_lines (t : Text) : (Text.lines t).filterMap (Line.read? 0) = kept t := by
  have hreturn : Line.read? 0 ∘ dropReturn = Line.read? 0 :=
    funext fun raw => Line.read?_congr (trim_dropReturn raw) 0
  have hlast : ∀ last : Text, (if last = [] then [] else [last]).filterMap (Line.read? 0) =
      [last].filterMap (Line.read? 0) := by
    intro last
    split
    · next h => rw [h]; rfl
    · rfl
  have hne : pieces (· == '\n') t ≠ [] := by rw [pieces_eq]; exact List.cons_ne_nil _ _
  unfold Text.lines kept
  dsimp only
  rw [List.filterMap_append, List.filterMap_map, hreturn, hlast, ← List.filterMap_append,
    List.getLast?_eq_some_getLast hne, Option.getD_some, List.dropLast_append_getLast hne]

lemma map_unplaced_readAll (t : Text) : (Line.readAll t).map Line.unplaced = kept t := by
  rw [← filterMap_lines, ← List.zipIdx_map_fst 0 (Text.lines t), List.filterMap_map]
  unfold Line.readAll
  rw [List.map_filterMap]
  exact List.filterMap_congr fun x _ => Line.map_unplaced_read? (x.2 + 1) x.1

lemma indexNumbers_unplaced (ls : List Line) :
    indexNumbers (ls.map Line.unplaced) = indexNumbers ls := by
  unfold indexNumbers
  rw [List.zipIdx_map, List.foldl_map]
  rfl

lemma indexProcedures_unplaced (i : ℕ) (ls : List Line) (table : Table Procedure) :
    indexProcedures i (ls.map Line.unplaced) table = indexProcedures i ls table := by
  fun_induction indexProcedures i ls table with
  | case1 i table => rw [List.map_nil, indexProcedures]
  | case2 i table l rest ho ih =>
    have ho' : l.unplaced.opens? = none := ho
    rw [List.map_cons, indexProcedures, ho']
    exact ih
  | case3 i table l rest name params ho body finish ih =>
    have ho' : l.unplaced.opens? = some (name, params) := ho
    have hbody : (rest.map Line.unplaced).takeWhile (!·.closes) = body.map Line.unplaced :=
      List.takeWhile_map
    rw [List.map_cons, indexProcedures, ho']
    dsimp only
    rw [hbody, List.length_map, List.length_map, List.map_map, ← List.map_drop]
    exact ih

/-- The labels that are found depend on the lines alone, and so does the label that is declared
twice. -/
lemma indexLabels_unplaced (all all' : List Line) (labels : Table ℕ) (ls : List (Line × ℕ)) :
    (indexLabels all' labels (ls.map (Prod.map Line.unplaced id))).mapError LoadError.label =
      (indexLabels all labels ls).mapError LoadError.label := by
  induction ls generalizing labels with
  | nil => rfl
  | cons x ls ih =>
    obtain ⟨l, i⟩ := x
    rw [List.map_cons, Prod.map_apply, indexLabels, indexLabels]
    cases hlabel : l.label? with
    | none =>
      have hlabel' : l.unplaced.label? = none := hlabel
      rw [hlabel']
      exact ih labels
    | some n =>
      have hlabel' : l.unplaced.label? = some n := hlabel
      rw [hlabel']
      dsimp only
      cases labels.get? n with
      | none => exact ih _
      -- the name is the same, only the lines that are reported differ
      | some first => rfl

/-- The two results are the same but for places in the source text. -/
inductive SameUnplaced : Except LoadError Program → Except LoadError Program → Prop where
  | ok {p p' : Program} (lines : p'.lines.map Line.unplaced = p.lines.map Line.unplaced)
      (labels : p'.labels = p.labels) (numbers : p'.numbers = p.numbers)
      (procedures : p'.procedures = p.procedures) (data : p'.data = p.data) :
      SameUnplaced (.ok p) (.ok p')
  | duplicate {name : Text} {first second first' second' : ℕ} :
      SameUnplaced (.error (.duplicateLabel name first second))
        (.error (.duplicateLabel name first' second'))

/-- A program is made from what is kept of its text. -/
lemma sameUnplaced_of_kept (h : kept t = kept s) : SameUnplaced (load s) (load t) := by
  rw [← map_unplaced_readAll, ← map_unplaced_readAll] at h
  unfold load
  generalize Line.readAll s = ls at h ⊢
  generalize Line.readAll t = ls' at h ⊢
  -- each table depends on the lines only through what is kept of them
  have hlabels : (indexLabels ls' {} ls'.zipIdx).mapError LoadError.label =
      (indexLabels ls {} ls.zipIdx).mapError LoadError.label := by
    rw [← indexLabels_unplaced ls' [], ← indexLabels_unplaced ls [], ← List.zipIdx_map,
      ← List.zipIdx_map, h]
  have hnumbers : indexNumbers ls' = indexNumbers ls := by
    rw [← indexNumbers_unplaced ls', h, indexNumbers_unplaced]
  have hprocedures : indexProcedures 0 ls' {} = indexProcedures 0 ls {} := by
    rw [← indexProcedures_unplaced 0 ls', h, indexProcedures_unplaced]
  have hdata : ls'.flatMap lineData = ls.flatMap lineData := by
    have hunplaced : ∀ ls : List Line, (ls.map Line.unplaced).flatMap lineData =
        ls.flatMap lineData := fun ls => List.flatMap_map ..
    rw [← hunplaced ls', h, hunplaced]
  dsimp only
  cases hs : indexLabels ls {} ls.zipIdx with
  | ok labels =>
    cases ht : indexLabels ls' {} ls'.zipIdx with
    | ok labels' =>
      rw [hs, ht] at hlabels
      exact .ok h (Except.ok.inj hlabels) hnumbers hprocedures hdata
    | error e =>
      rw [hs, ht] at hlabels
      cases hlabels
  | error e =>
    cases ht : indexLabels ls' {} ls'.zipIdx with
    | ok labels' =>
      rw [hs, ht] at hlabels
      cases hlabels
    | error e' =>
      rw [hs, ht] at hlabels
      obtain ⟨name, first, second⟩ := e
      obtain ⟨name', first', second'⟩ := e'
      obtain rfl : name' = name := Except.error.inj hlabels
      exact .duplicate

/-- **The layout of a text does not matter.** -/
theorem load_of_relaid (h : Relation.ReflTransGen Relaid s t) :
    SameUnplaced (load s) (load t) :=
  sameUnplaced_of_kept (kept_of_relaid h)

/-- White space around the first line, a comment between the lines and a remark behind them; the
label in the comment is not declared again. -/
theorem load_of_relaid_padded :
    Relation.ReflTransGen Relaid "L:A\n10 DATA 1".toList
      " L:A\t\r\n# L:A\n10 DATA 1\nrem".toList ∧
    SameUnplaced (load "L:A\n10 DATA 1".toList)
      (load " L:A\t\r\n# L:A\n10 DATA 1\nrem".toList) := by
  have h : Relation.ReflTransGen Relaid "L:A\n10 DATA 1".toList
      " L:A\t\r\n# L:A\n10 DATA 1\nrem".toList := by
    have hpad : Relaid "L:A\n10 DATA 1".toList " L:A\n10 DATA 1".toList :=
      .padStart [] [' '] "L:A\n10 DATA 1".toList rfl (.inl rfl)
    have hreturn : Relaid " L:A\n10 DATA 1".toList " L:A\r\n10 DATA 1".toList :=
      .carriageReturn " L:A".toList "10 DATA 1".toList
    have htab : Relaid " L:A\r\n10 DATA 1".toList " L:A\t\r\n10 DATA 1".toList :=
      .padEnd " L:A".toList ['\t'] "\r\n10 DATA 1".toList rfl (.inr ⟨_, .inr rfl⟩)
    have hnote : Relaid " L:A\t\r\n10 DATA 1".toList " L:A\t\r\n# L:A\n10 DATA 1".toList :=
      .above " L:A\t\r\n".toList "# L:A".toList "10 DATA 1".toList
        (.sign "#".toList " L:A".toList (by simp) (by decide)) (.inr ⟨" L:A\t\r".toList, rfl⟩)
    have hlast : Relaid " L:A\t\r\n# L:A\n10 DATA 1".toList
        " L:A\t\r\n# L:A\n10 DATA 1\nrem".toList :=
      .below " L:A\t\r\n# L:A\n10 DATA 1".toList "rem".toList []
        (.remark "rem".toList [] rfl (by simp) (by simp)) (.inl rfl)
    exact .head hpad (.head hreturn (.head htab (.head hnote (.single hlast))))
  exact ⟨h, load_of_relaid h⟩

end Program

end Courseware
