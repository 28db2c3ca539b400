import Courseware.Proofs.Program.Index
import Courseware.Proofs.Text.Words

/-!
The procedures of a loaded program.

Every procedure in the table stands in the lines: it is opened outside of all others, it reaches to
the next `END` line or to the last line, and its body are the lines between. What a line opens and
how far that reaches is settled by the lines alone, so two procedures that begin at one place are
the same, and procedures that begin at different places do not overlap.
-/

namespace Courseware

open Text

namespace Table

variable {α : Type} {k : Text} {a : α}

lemma mem_insertEntry {e : Text × α} {l : List (Text × α)} (h : e ∈ insertEntry k a l) :
    e = (k, a) ∨ e ∈ l := by
  induction l with
  | nil => exact .inl (List.mem_singleton.1 h)
  | cons x r ih =>
    rw [insertEntry] at h
    split at h
    · exact (List.mem_cons.1 h)
    · exact (List.mem_cons.1 h).imp_right (List.mem_cons_of_mem x)
    · rcases List.mem_cons.1 h with rfl | h
      · exact .inr List.mem_cons_self
      · exact (ih h).imp_right (List.mem_cons_of_mem x)

lemma mem_of_get? {t : Table α} (h : t.get? k = some a) : (k, a) ∈ t.entries := by
  obtain ⟨l, r, hentries, -⟩ := List.lookup_eq_some_iff.1 h
  rw [hentries]
  simp

end Table

namespace Line

variable {l : Line} {name : Text} {params : List Text}

lemma words_of_opens? (h : l.opens? = some (name, params)) :
    ∃ keyword word rest, words l.text = keyword :: word :: rest ∧
      sameWord keyword "TO".toList = true ∧ name = upper word := by
  unfold opens? at h
  split at h
  · next keyword word rest hwords =>
    split at h
    · next hto =>
      cases h
      exact ⟨keyword, word, rest, hwords, hto, rfl⟩
    · cases h
  · cases h

/-- A line that opens a definition closes none. -/
lemma closes_of_opens? (h : l.opens? = some (name, params)) : l.closes = false := by
  obtain ⟨keyword, word, rest, hwords, -⟩ := words_of_opens? h
  by_contra hc
  have hupper : upper l.text = upper ['E', 'N', 'D'] := by
    have hcloses : l.closes = true := by simpa using hc
    exact beq_iff_eq.1 hcloses
  have hletters : (['E', 'N', 'D'].all fun d => !isBlank d) = true := rfl
  have hblank : ∀ c ∈ l.text, isBlank c = false := by
    refine not_blank_of_upper hupper fun c hc => ?_
    simpa using List.all_eq_true.1 hletters c hc
  have hne : l.text ≠ [] := by
    intro hnil
    rw [hnil] at hupper
    cases hupper
  -- the text is a single word, and a definition takes two
  rw [words_of_not_blank hne hblank] at hwords
  cases hwords

end Line

namespace Program

variable {p : Program} {source : Text} {ls : List Line} {q q' : Procedure}

/-- The procedure is the one that is defined from its first line on. -/
structure StandsIn (ls : List Line) (q : Procedure) : Prop where
  outside : Outside ls q.start
  opens : ∃ l, ls[q.start]? = some l ∧ l.opens? = some (q.name, q.params)
  closes : Closes ls q.start q.finish
  body : q.body = ((ls.drop (q.start + 1)).takeWhile (!·.closes)).map (·.text)

namespace StandsIn

lemma defines (h : StandsIn ls q) : Defines ls q.name q.start q.finish := by
  obtain ⟨l, hl, ho⟩ := h.opens
  exact ⟨h.outside, ⟨l, q.params, hl, ho⟩, h.closes⟩

/-- A procedure is determined by its first line. -/
lemma eq_of_start (h : StandsIn ls q) (h' : StandsIn ls q') (hstart : q.start = q'.start) :
    q = q' := by
  obtain ⟨l, hl, ho⟩ := h.opens
  obtain ⟨l', hl', ho'⟩ := h'.opens
  have hfinish := h'.closes
  have hbody := h.body
  rw [← hstart] at hl' hfinish
  rw [hstart, ← h'.body] at hbody
  rw [hl] at hl'
  cases hl'
  rw [ho, Option.some.injEq, Prod.mk.injEq] at ho'
  have hend := h.closes.unique hfinish
  obtain ⟨name, params, body, start, finish⟩ := q
  obtain ⟨name', params', body', start', finish'⟩ := q'
  simp_all

/-- Of two procedures, one begins behind the other. -/
lemma apart (h : StandsIn ls q) (h' : StandsIn ls q') (hne : q ≠ q') :
    q.finish < q'.start ∨ q'.finish < q.start := by
  obtain ⟨l, hl, ho⟩ := h.opens
  obtain ⟨l', hl', ho'⟩ := h'.opens
  rcases Nat.lt_trichotomy q.start q'.start with hlt | heq | hlt
  · exact .inl (h'.outside.lt_of_closes h.outside hl ho h.closes hlt)
  · exact absurd (h.eq_of_start h' heq) hne
  · exact .inr (h.outside.lt_of_closes h'.outside hl' ho' h'.closes hlt)

end StandsIn

/-- Every procedure in the table stands in the lines, under its name. -/
lemma standsIn_of_indexProcedures {all : List Line} {i : ℕ} {table : Table Procedure}
    (hls : all.drop i = ls) (hi : Outside all i)
    (htable : ∀ e ∈ table.entries, e.1 = e.2.name ∧ StandsIn all e.2) :
    ∀ e ∈ (indexProcedures i ls table).entries, e.1 = e.2.name ∧ StandsIn all e.2 := by
  fun_induction indexProcedures i ls table with
  | case1 => exact htable
  | case2 i table l rest ho ih =>
    exact ih (drop_of_drop hls) (hi.line (getElem?_of_drop hls).1 ho) htable
  | case3 i table l rest name params ho body finish ih =>
    have hl := (getElem?_of_drop hls).1
    have hc : Closes all i finish := closes_takeWhile hls rfl
    refine ih (drop_of_body hls rfl) (hi.definition hl ho hc) fun e he => ?_
    rcases Table.mem_insertEntry he with rfl | he
    · refine ⟨rfl, hi, ⟨l, hl, ho⟩, hc, ?_⟩
      rw [drop_of_drop hls]
    · exact htable e he

/-- A procedure is known by its name in capitals. -/
lemma Defines.canonical {name : Text} {i e : ℕ} (h : Defines ls name i e) :
    Text.canonical name = name := by
  obtain ⟨l, params, -, ho⟩ := h.opens
  obtain ⟨keyword, word, rest, hwords, -, rfl⟩ := Line.words_of_opens? ho
  have hmem : word ∈ words l.text := by rw [hwords]; simp
  exact canonical_of_mem_words hmem (upper_upper word)

/-- In a loaded program all procedures stand in its lines. -/
lemma standsIn_of_load (h : load source = .ok p) {k : Text} (hq : (k, q) ∈ p.procedures.entries) :
    k = q.name ∧ StandsIn p.lines q := by
  rw [(of_load h).2.2.2] at hq
  refine standsIn_of_indexProcedures List.drop_zero .start (fun e he => ?_) (k, q) hq
  cases he

/-- The definition that a program knows by a name is the last one. -/
lemma lastDefines_of_get? (h : load source = .ok p) {name : Text} {i e : ℕ}
    (hd : Defines p.lines name i e) :
    ∃ q, p.procedures.get? name = some q ∧ LastDefines p.lines name q.start q.finish := by
  obtain ⟨j, f, q, hlast, hget, rfl⟩ := get?_of_defines h hd
  obtain ⟨hname, hq⟩ := standsIn_of_load h (Table.mem_of_get? hget)
  have hstands : Defines p.lines name q.start q.finish := hname ▸ hq.defines
  have hle := hlast.last q.start q.finish hstands
  -- both definitions reach to one line, and an earlier one would end before the later begins
  have hstart : q.start = j := by
    by_contra hne
    have hlt := hstands.lt_of_lt hlast.defines (by omega)
    have hj := hlast.defines.closes.le
    omega
  exact ⟨q, hget, hstart ▸ hlast⟩

/-! ### The text of a procedure -/

/-- What a procedure says of itself is found in the lines of the program. -/
structure WellFormed (ls : List Line) (q : Procedure) : Prop where
  start_le : q.start ≤ q.finish
  finish_lt : q.finish < ls.length
  header : ∃ l keyword name params, ls[q.start]? = some l ∧
    words l.text = keyword :: name :: params ∧
    sameWord keyword "TO".toList = true ∧ sameWord name q.name = true
  body : ∃ l, ls[q.finish]? = some l ∧
    q.body = (ls.extract (q.start + 1)
      (if sameWord l.text "END".toList then q.finish else q.finish + 1)).map (·.text)
  no_end : ∀ t ∈ q.body, sameWord t "END".toList = false

lemma Closes.lt_length {i e : ℕ} (h : Closes ls i e) : e < ls.length := by
  cases h with
  | atEnd hi hl => exact (List.getElem?_eq_some_iff.1 hl).1
  | atLast hi he => omega

/-- The lines up to one that closes a definition. -/
lemma takeWhile_eq_extract {i n : ℕ} (hi : i < n)
    (hbody : ∀ j l, i < j → j < n → ls[j]? = some l → l.closes = false)
    (hend : ∀ l, ls[n]? = some l → l.closes = true) :
    (ls.drop (i + 1)).takeWhile (!·.closes) = ls.extract (i + 1) n := by
  have hpos : ∀ l ∈ ls.extract (i + 1) n, (!l.closes) = true := by
    intro l hl
    obtain ⟨k, hk, hget⟩ := List.mem_iff_getElem.1 hl
    have hlen : k < n - (i + 1) := by
      rw [List.extract_eq_take_drop, List.length_take] at hk
      omega
    have hline : ls[i + 1 + k]? = some l := by
      rw [← hget]
      simp
    rw [hbody (i + 1 + k) l (by omega) (by omega) hline]
    rfl
  -- the line after the body closes the definition, or there is none
  have hrest : (ls.drop n).takeWhile (!·.closes) = [] := by
    cases hd : ls.drop n with
    | nil => rfl
    | cons l rest => rw [List.takeWhile_cons_of_neg (by simp [hend l (getElem?_of_drop hd).1])]
  have hsplit : ls.drop (i + 1) = ls.extract (i + 1) n ++ ls.drop n := by
    rw [List.extract_eq_take_drop]
    conv_lhs => rw [← List.take_append_drop (n - (i + 1)) (ls.drop (i + 1)), List.drop_drop]
    congr 2
    omega
  rw [hsplit, List.takeWhile_append_of_pos hpos, hrest, List.append_nil]

/-- The body ends before the last line of a definition just if that is an `END` line. -/
lemma StandsIn.body_eq_extract (h : StandsIn ls q) {l : Line} (hl : ls[q.finish]? = some l) :
    q.body = (ls.extract (q.start + 1)
      (if l.closes then q.finish else q.finish + 1)).map (·.text) := by
  rw [h.body]
  cases h.closes with
  | atEnd hi hend hc hbody =>
    have hlast : ∀ l', ls[q.finish]? = some l' → l'.closes = true := by
      intro l' hl'
      rw [hend] at hl'
      cases hl'
      exact hc
    rw [if_pos (hlast l hl), takeWhile_eq_extract hi hbody hlast]
  | atLast hi he hbody =>
    -- the last line is either in the body or the line that opens the definition
    have hsame : ¬ l.closes = true := by
      rw [Bool.not_eq_true]
      rcases Nat.lt_or_eq_of_le hi with hi | hi
      · exact hbody q.finish l hi hl
      · obtain ⟨l', hl', ho⟩ := h.opens
        rw [hi, hl] at hl'
        cases hl'
        exact Line.closes_of_opens? ho
    have hend : ∀ l', ls[q.finish + 1]? = some l' → l'.closes = true := by
      intro l' hl'
      rw [List.getElem?_eq_none (by omega)] at hl'
      cases hl'
    rw [if_neg hsame, takeWhile_eq_extract (by omega) (fun j l hj _ => hbody j l hj) hend]

lemma StandsIn.wellFormed (h : StandsIn ls q) : WellFormed ls q where
  start_le := h.closes.le
  finish_lt := h.closes.lt_length
  header := by
    obtain ⟨l, hl, ho⟩ := h.opens
    obtain ⟨keyword, word, rest, hwords, hto, hname⟩ := Line.words_of_opens? ho
    refine ⟨l, keyword, word, rest, hl, hwords, hto, ?_⟩
    rw [hname]
    exact beq_iff_eq.2 (upper_upper word).symm
  body := by
    have hl := List.getElem?_eq_getElem h.closes.lt_length
    exact ⟨_, hl, h.body_eq_extract hl⟩
  no_end := by
    intro t ht
    rw [h.body] at ht
    obtain ⟨l, hl, rfl⟩ := List.mem_map.1 ht
    have hbody := List.mem_takeWhile_imp hl
    rw [Bool.not_eq_true'] at hbody
    exact hbody

/-- **The procedures of a program are well-formed.** -/
theorem procedures_wellFormed (h : load source = .ok p) :
    (∀ k q, (k, q) ∈ p.procedures.entries → k = q.name ∧ WellFormed p.lines q) ∧
    (∀ k q k' q', (k, q) ∈ p.procedures.entries → (k', q') ∈ p.procedures.entries → q ≠ q' →
      q.finish < q'.start ∨ q'.finish < q.start) ∧
    ∀ name i e, Defines p.lines name i e →
      ∃ q, p.procedure? name = some q ∧ LastDefines p.lines name q.start q.finish := by
  refine ⟨fun k q hq => ?_, fun k q k' q' hq hq' hne => ?_, fun name i e hd => ?_⟩
  · obtain ⟨hname, hstands⟩ := standsIn_of_load h hq
    exact ⟨hname, hstands.wellFormed⟩
  · exact (standsIn_of_load h hq).2.apart (standsIn_of_load h hq').2 hne
  · obtain ⟨q, hget, hlast⟩ := lastDefines_of_get? h hd
    refine ⟨q, ?_, hlast⟩
    unfold procedure?
    rw [hd.canonical]
    exact hget

/-- The later definition of `P` is known, which holds a line that would open one itself, and the
definition on the last line has no body. -/
theorem procedures_wellFormed_redefined :
    ∃ p q r, load "TO p\nEND\nto P :x\nTO q\nend\nTO r".toList = .ok p ∧
      p.procedure? "P".toList = some q ∧ p.procedure? "R".toList = some r ∧
      WellFormed p.lines q ∧ WellFormed p.lines r ∧ 2 ≤ q.start ∧ r.start = 5 ∧
      q.finish < r.start := by
  obtain ⟨p, hload, hlines⟩ : ∃ p, load "TO p\nEND\nto P :x\nTO q\nend\nTO r".toList = .ok p ∧
      p.lines = [⟨1, none, "TO p".toList⟩, ⟨2, none, "END".toList⟩, ⟨3, none, "to P :x".toList⟩,
        ⟨4, none, "TO q".toList⟩, ⟨5, none, "end".toList⟩, ⟨6, none, "TO r".toList⟩] :=
    ⟨_, rfl, rfl⟩
  have hlen : p.lines.length = 6 := by rw [hlines]; rfl
  have hfirst : Closes p.lines 0 1 := by
    rw [hlines]
    exact .atEnd (by omega) rfl rfl fun j l h1 h2 => by omega
  have hsecond : Closes p.lines 2 4 := by
    rw [hlines]
    refine .atEnd (by omega) rfl rfl fun j l h1 h2 hl => ?_
    obtain rfl : j = 3 := by omega
    cases hl
    rfl
  have houtside : Outside p.lines 2 := .definition .start (by rw [hlines]; rfl) rfl hfirst
  have hP : Defines p.lines "P".toList 2 4 :=
    ⟨houtside, ⟨_, ["X".toList], by rw [hlines]; rfl, rfl⟩, hsecond⟩
  have hR : Defines p.lines "R".toList 5 5 := by
    refine ⟨.definition houtside (by rw [hlines]; rfl) rfl hsecond,
      ⟨_, [], by rw [hlines]; rfl, rfl⟩, .atLast (by omega) (by omega) fun j l hj hl => ?_⟩
    rw [List.getElem?_eq_none (by omega)] at hl
    cases hl
  obtain ⟨hform, happart, hlast⟩ := procedures_wellFormed hload
  obtain ⟨q, hq, hqlast⟩ := hlast _ _ _ hP
  obtain ⟨r, hr, hrlast⟩ := hlast _ _ _ hR
  obtain ⟨hqname, hqform⟩ := hform _ _ (Table.mem_of_get? hq)
  obtain ⟨hrname, hrform⟩ := hform _ _ (Table.mem_of_get? hr)
  have hqstart := hqlast.last 2 4 hP
  have hrstart := hrlast.last 5 5 hR
  have hne : q ≠ r := by
    rintro rfl
    cases hqname.trans hrname.symm
  have happart := happart _ _ _ _ (Table.mem_of_get? hq) (Table.mem_of_get? hr) hne
  have hqle := hqform.start_le
  have hqlt := hqform.finish_lt
  have hrle := hrform.start_le
  have hrlt := hrform.finish_lt
  exact ⟨p, q, r, hload, hq, hr, hqform, hrform, hqstart, by omega, by omega⟩

end Program

end Courseware
