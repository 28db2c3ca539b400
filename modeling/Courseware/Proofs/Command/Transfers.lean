import Courseware.Proofs.Command.Family
import Courseware.Proofs.Command.Steadiness
import Courseware.Proofs.Logo.Reading
import Courseware.Proofs.Program.Index

/-!
Lines that lead to a place by a name.

`J:` leads to the label that it names, unless the name is taken for a line number. `TO` leads
behind the definition that is known by the name, which is the last one: an earlier definition of
the same name does not lead behind itself.
-/

namespace Courseware

open Text Exec

/-! ### Jumping to a label -/

namespace Pilot

variable {env : Environment} {m : Machine}

/-- A command that depends on a fresh outcome is carried out if there is none. -/
lemma holds_of_not_available (h : m.verdict.available = false) :
    Condition.unlessFailed.holds env m = .ok true m := by
  have hc : m.verdict.consumed = true := by simpa [Verdict.available] using h
  have ht : m.verdict.take = (none, m.verdict) := by rw [Verdict.take, if_pos hc]
  rw [holds_unlessFailed, ht]
  rfl

lemma jump_of_ne_nil {label : Text} (h : label ≠ []) :
    jump label env m =
      match env.program.target? label with
      | some i => .ok (.jump i) m
      | none => .error (.undefinedLabel (trim label)) m := by
  unfold jump
  rw [if_neg h]
  have ht : target label env m =
      match env.program.target? label with
      | some i => .ok i m
      | none => .error (.undefinedLabel (trim label)) m := by
    unfold target
    refine (bind_of_ok (a := env.program) rfl).trans ?_
    cases env.program.target? label <;> rfl
  cases hr : env.program.target? label with
  | some i =>
    rw [hr] at ht
    exact bind_of_ok ht
  | none =>
    rw [hr] at ht
    exact bind_of_error ht

end Pilot

namespace Command

/-- The command `J:` with its operand. -/
lemma read_jump (p : Program) (t : Text) :
    read p ('J' :: ':' :: t) = .pilot (.jump .unlessFailed (Pilot.labelOf (trim t))) := by
  have htrim : trim ('J' :: ':' :: t) = 'J' :: ':' :: trimEnd t := by
    unfold trim
    rw [trimStart_cons_of_not_blank (by decide), trimEnd_cons_of_not_blank (by decide),
      trimEnd_cons_of_not_blank (by decide)]
  have hsplit : Pilot.split? ('J' :: ':' :: trimEnd t) = some (['J'], trimEnd t) := rfl
  have hclass : Family.classify ('J' :: ':' :: trimEnd t) = .pilot := by
    rw [Family.classify, hsplit]
    rfl
  rw [read, htrim, hclass]
  dsimp only
  rw [hsplit]
  dsimp only
  rw [trim_trimEnd]
  rfl

end Command

/-- The command `J:` where no outcome of a test is left. -/
lemma execute_jump (room : Nat) {name : Text} {env : Environment} {m : Machine}
    (hm : m.verdict.available = false) (hname : Pilot.labelOf (trim name) ≠ []) :
    execute room ('J' :: ':' :: name) env m =
      match env.program.target? (Pilot.labelOf (trim name)) with
      | some i => .ok (.jump i) m
      | none => .error (.undefinedLabel (trim (Pilot.labelOf (trim name)))) m := by
  obtain ⟨enter, he⟩ := execute_eq room ('J' :: ':' :: name) env m
  rw [he, Command.read_jump]
  exact (bind_of_ok (Pilot.holds_of_not_available hm)).trans (Pilot.jump_of_ne_nil hname)

lemma labelOf_trim {name : Text} (hstar : (trim name).head? ≠ some '*') :
    Pilot.labelOf (trim name) = trim name := by
  unfold Pilot.labelOf
  rw [trim_trim]
  cases hn : trim name with
  | nil => rfl
  | cons c r =>
    rw [hn] at hstar
    refine List.dropWhile_cons_of_neg ?_
    simpa using hstar

/-- **A declared label can be jumped to by its name**, written as it is declared, unless the name
begins with an asterisk, which is not taken for a part of it, or is taken for a line number. Then
the jump leads to the last line that carries the number, or fails if there is none. -/
theorem jump_to_declared_label {source : Text} {p : Program} (hload : Program.load source = .ok p)
    {i : Nat} {line : Line} (hline : p.line? i = some line) {name : Text}
    (htext : line.text = 'L' :: ':' :: name ∨ line.text = 'l' :: ':' :: name)
    (hname : trim name ≠ []) (hstar : (trim name).head? ≠ some '*') (room : Nat)
    {env : Environment} (henv : env.program = p) {m : Machine}
    (hm : m.verdict.available = false) :
    (Program.readLineNumber? (trim name) = none →
      execute room ('J' :: ':' :: name) env m = .ok (.jump i) m) ∧
    ∀ n, Program.readLineNumber? (trim name) = some n →
      (∀ j, Program.LastNumbered p.lines n j →
        execute room ('J' :: ':' :: name) env m = .ok (.jump j) m) ∧
      ((∀ j, ¬ Program.LastNumbered p.lines n j) →
        execute room ('J' :: ':' :: name) env m = .error (.undefinedLabel (trim name)) m) := by
  have hlabel := labelOf_trim hstar
  rw [execute_jump room hm (by rwa [hlabel]), hlabel, henv]
  unfold Program.target?
  rw [trim_trim]
  refine ⟨fun hn => ?_, fun n hn => ?_⟩
  · rw [hn]
    -- no number, so the label decides
    have hl := Program.label?_of_load hload hline (label?_of_text htext hname) (canonical_trim name)
    dsimp only
    rw [hl]
  · rw [hn]
    dsimp only
    -- a number, so only the table of numbers is asked
    refine ⟨fun j hj => ?_, fun hnone => ?_⟩
    · rw [(Program.number?_of_load hload n j).2 hj]
    · cases hr : p.number? n with
      | none => rfl
      | some j => exact absurd ((Program.number?_of_load hload n j).1 hr) (hnone j)

/-- A label in several words, declared by a small letter. -/
theorem jump_to_declared_label_spaced :
    ∃ (p : Program) (line : Line) (env : Environment) (m : Machine),
      Program.load "T:one\nl: Mixed  Case".toList = .ok p ∧ p.line? 1 = some line ∧
      line.text = "l: Mixed  Case".toList ∧ env.program = p ∧ m.verdict.available = false ∧
      execute 0 "J: Mixed  Case".toList env m = .ok (.jump 1) m := by
  obtain ⟨p, line, hload, hline, htext⟩ : ∃ p line,
      Program.load "T:one\nl: Mixed  Case".toList = .ok p ∧ p.line? 1 = some line ∧
      line.text = "l: Mixed  Case".toList := ⟨_, _, rfl, rfl, rfl⟩
  refine ⟨p, line, ⟨p, {}, 0⟩, default, hload, hline, htext, rfl, rfl, ?_⟩
  exact (jump_to_declared_label hload hline (.inr htext) (by decide) (by decide) 0 rfl rfl).1
    (by decide)

/-- A label that reads as a line number is not found where no line carries the number, and one
that begins with an asterisk is not found either. -/
theorem odd_labels_not_reached :
    ∃ (p : Program) (number star : Line) (env : Environment) (m : Machine),
      Program.load "J:10\nL:10\nL:*X".toList = .ok p ∧ p.line? 1 = some number ∧
      number.text = "L:10".toList ∧ p.line? 2 = some star ∧ star.text = "L:*X".toList ∧
      env.program = p ∧ m.verdict.available = false ∧
      (∀ m', execute 0 "J:10".toList env m ≠ .ok (.jump 1) m') ∧
      ∀ m', execute 0 "J:*X".toList env m ≠ .ok (.jump 2) m' := by
  obtain ⟨p, number, star, hload, hnumber, htext, hstar, htext', hten, hx⟩ : ∃ p number star,
      Program.load "J:10\nL:10\nL:*X".toList = .ok p ∧ p.line? 1 = some number ∧
      number.text = "L:10".toList ∧ p.line? 2 = some star ∧ star.text = "L:*X".toList ∧
      p.target? "10".toList = none ∧ p.target? "X".toList = none :=
    ⟨_, _, _, rfl, rfl, rfl, rfl, rfl, rfl, rfl⟩
  have hfails : ∀ name label, Pilot.labelOf (trim name) = label → label ≠ [] →
      p.target? label = none → ∀ i m',
      execute 0 ('J' :: ':' :: name) ⟨p, {}, 0⟩ default ≠ .ok (.jump i) m' := by
    intro name label hlabel hne htarget i m' h
    rw [execute_jump 0 rfl (hlabel ▸ hne), hlabel, htarget] at h
    cases h
  exact ⟨p, number, star, ⟨p, {}, 0⟩, default, hload, hnumber, htext, hstar, htext', rfl, rfl,
    hfails "10".toList _ rfl (by decide) hten 1, hfails "*X".toList _ rfl (by decide) hx 2⟩

/-! ### Skipping a definition -/

/-- A line that opens a definition begins with the keyword and white space. -/
lemma of_opens? {l : Line} {name : Text} {params : List Text} (ht : trim l.text = l.text)
    (ho : l.opens? = some (name, params)) :
    ∃ a b s r w ws, l.text = a :: b :: s :: r ∧ (a = 'T' ∨ a = 't') ∧ (b = 'O' ∨ b = 'o') ∧
      isBlank s = true ∧ words r = w :: ws ∧ upper w = name := by
  -- a letter that becomes `d` is `d` itself or its lower case
  have hletter : ∀ {c d e : Char}, c.toUpper = d → Char.ofNat (d.toNat + 32) = e →
      c = d ∨ c = e := by
    intro c d e hd he
    refine (eq_or_of_toUpper hd).imp_right fun hc => ?_
    rw [← he, ← hc, Char.ofNat_toNat]
  unfold Line.opens? at ho
  split at ho
  · next keyword w ps hw =>
    split at ho
    · next hk =>
      cases ho
      -- a trimmed line with two words has white space after the first
      obtain ⟨c, t, htext⟩ : ∃ c t, l.text = c :: t := by
        cases hl : l.text with
        | nil =>
          rw [hl] at hw
          cases hw
        | cons c t => exact ⟨c, t, rfl⟩
      rw [htext] at ht hw
      obtain ⟨s, r, heq, hs, hr⟩ := of_words_cons_cons hw (head_of_trimmed ht)
      have hup : keyword.map Char.toUpper = ['T', 'O'] := beq_iff_eq.1 hk
      obtain ⟨a, k, rfl, ha, hk⟩ := List.map_eq_cons_iff.1 hup
      obtain ⟨b, k', rfl, hb, hk'⟩ := List.map_eq_cons_iff.1 hk
      obtain rfl := List.map_eq_nil_iff.1 hk'
      exact ⟨a, b, s, r, w, ps, htext.trans heq, hletter ha rfl, hletter hb rfl, hs, hr, rfl⟩
    · cases ho
  · cases ho

/-- The keyword, in small letters or in capitals. -/
lemma isName_keyword {a b : Char} (ha : a = 'T' ∨ a = 't') (hb : b = 'O' ∨ b = 'o') :
    isName [a, b] = true ∧ upper [a, b] = "TO".toList := by
  rcases ha with rfl | rfl <;> rcases hb with rfl | rfl <;> exact ⟨rfl, rfl⟩

/-- A line that opens a definition belongs to Logo, unless it is an assignment. -/
lemma classify_of_opens? {l : Line} {name : Text} {params : List Text}
    (ht : trim l.text = l.text) (ho : l.opens? = some (name, params))
    (hassign : Family.isAssignment l.text = false) : Family.classify l.text = .logo := by
  obtain ⟨a, b, s, r, w, ws, htext, ha, hb, hs, -, -⟩ := of_opens? ht ho
  obtain ⟨hname, hup⟩ := isName_keyword ha hb
  rw [htext] at hassign ⊢
  exact classify_verb hname hs r (by rw [hup]; rfl) (by rw [hup]; rfl) hassign

/-- Logo reads a line as the definition of `name`: no value is assigned to a variable `TO`, and
the first words of Logo are those of the definition. -/
structure Line.Announces (l : Line) (name : Text) : Prop where
  unassigned : Family.isAssignment l.text = false
  words : ∃ keyword n ws, Logo.splitWords l.text = .ok (.atom keyword :: .atom n :: ws) ∧
    sameWord keyword "TO".toList = true ∧ upper n = name

/-- A line without marks whose name does not begin with an equals sign is read as it is meant. -/
lemma Line.announces_of_opens? {l : Line} {name : Text} {params : List Text}
    (ht : trim l.text = l.text) (ho : l.opens? = some (name, params))
    (hmark : ∀ c ∈ l.text, Logo.isMark c = false) (heq : name.head? ≠ some '=') :
    l.Announces name := by
  obtain ⟨a, b, s, r, w, ws, htext, ha, hb, hs, hr, rfl⟩ := of_opens? ht ho
  obtain ⟨hname, hup⟩ := isName_keyword ha hb
  have hline : l.text = [a, b] ++ s :: r := htext
  rw [htext] at hmark
  refine ⟨?_, [a, b], w, ws.map .atom, ?_, beq_iff_eq.2 hup, rfl⟩
  · obtain ⟨c, v, rest, rfl, htrim⟩ := trimStart_of_words hr
    have hc : c ≠ '=' := by
      rintro rfl
      exact heq rfl
    rw [isName, Bool.and_eq_true] at hname
    rw [hline, Family.isAssignment, splitName_append hname.2 (endsName_blank hs r)]
    dsimp only
    rw [trimStart_cons_of_blank hs, htrim]
    refine Bool.and_eq_false_iff.2 (.inr ?_)
    split <;> simp_all
  · have hwords : words (a :: b :: s :: r) = [a, b] :: words r := words_name hname hs r
    rw [htext, Logo.splitWords_eq_words hmark, hwords, hr]
    rfl

/-- Where a line leads that Logo reads as a definition. -/
lemma execute_define (room : Nat) {l : Line} {name : Text} {params : List Text}
    (ht : trim l.text = l.text) (ho : l.opens? = some (name, params)) (ha : l.Announces name)
    {env : Environment} (m : Machine) {q : Procedure}
    (hq : env.program.procedures.get? name = some q) :
    execute room l.text env m = .ok (.jump (q.finish + 1)) m := by
  obtain ⟨keyword, n, ws, hws, hk, hn⟩ := ha.words
  have hread : Command.read env.program l.text = .logo (.simple (.define (some n)) ::
      Logo.sentences env.program (.atom n :: ws)) := by
    rw [Command.read, ht, classify_of_opens? ht ho ha.unassigned]
    dsimp only
    rw [Command.readBlock, hws]
    exact congrArg Command.logo (Logo.sentences_define env.program ws hk)
  -- words are free of white space, so only the case differs
  have hname : canonical n = name := by
    obtain ⟨_, _, _, r, w, ws, -, -, -, -, hr, hw⟩ := of_opens? ht ho
    rw [← hw] at hn ⊢
    exact canonical_of_mem_words (hr ▸ List.mem_cons_self) hn
  have hskip : Logo.skipDefinition (some n) env m = .ok (.jump (q.finish + 1)) m := by
    unfold Logo.skipDefinition
    refine (bind_of_ok (a := env.program) rfl).trans ?_
    rw [Option.bind_some, Program.procedure?, hname, hq]
    rfl
  obtain ⟨enter, he⟩ := execute_eq room l.text env m
  rw [he, hread, Command.run, Logo.runAll]
  exact bind_of_ok hskip

/-- **A definition is skipped as far as the last definition of its name.** So it leads behind its
own end if and only if no later definition has the same name. -/
theorem skip_to_last_definition {source : Text} {p : Program} (hload : Program.load source = .ok p)
    {i e : Nat} {name : Text} (hd : Program.Defines p.lines name i e) {line : Line}
    (hline : p.line? i = some line) (ha : line.Announces name) (room : Nat) {env : Environment}
    (henv : env.program = p) (m : Machine) :
    (execute room line.text env m = .ok (.jump (e + 1)) m ↔
      ∀ j f, Program.Defines p.lines name j f → j ≤ i) ∧
    ∃ j f, Program.LastDefines p.lines name j f ∧
      execute room line.text env m = .ok (.jump (f + 1)) m := by
  obtain ⟨params, ho⟩ := hd.opens? hline
  obtain ⟨j, f, q, hlast, hq, hf⟩ := Program.get?_of_defines hload hd
  have hrun : execute room line.text env m = .ok (.jump (f + 1)) m := by
    rw [← hf]
    exact execute_define room (Program.trim_of_load hload hline) ho ha m (by rw [henv, hq])
  refine ⟨⟨fun h => ?_, fun h => ?_⟩, j, f, hlast, hrun⟩
  · -- two definitions that end at the same place are one
    cases h.symm.trans hrun
    have hji : j ≤ i := by
      by_contra hij
      have hlt := hd.lt_of_lt hlast.defines (by omega)
      have hle := hlast.defines.closes.le
      omega
    exact fun k f' hk => (hlast.last k f' hk).trans hji
  · -- the last definition is this one
    obtain rfl : j = i := Nat.le_antisymm (h j f hlast.defines) (hlast.last i e hd)
    rw [hrun, hlast.defines.closes.unique hd.closes]

/-- The second definition of a name leads behind itself; it has no end. -/
theorem skip_to_last_definition_repeated :
    ∃ (p : Program) (line : Line) (env : Environment) (m : Machine),
      Program.load "TO P\nEND\nto p :x\nT:two".toList = .ok p ∧
      Program.Defines p.lines "P".toList 2 3 ∧ p.line? 2 = some line ∧
      line.Announces "P".toList ∧ env.program = p ∧
      execute 0 line.text env m = .ok (.jump 4) m := by
  obtain ⟨p, hload, hlines⟩ : ∃ p, Program.load "TO P\nEND\nto p :x\nT:two".toList = .ok p ∧
      p.lines = [⟨1, none, "TO P".toList⟩, ⟨2, none, "END".toList⟩,
        ⟨3, none, "to p :x".toList⟩, ⟨4, none, "T:two".toList⟩] := ⟨_, rfl, rfl⟩
  have hline : p.line? 2 = some ⟨3, none, "to p :x".toList⟩ := by rw [Program.line?, hlines]; rfl
  have hfirst : Program.Closes p.lines 0 1 :=
    .atEnd (by omega) (by rw [hlines]; rfl) (by decide) fun j l _ _ _ => by omega
  have hsecond : Program.Closes p.lines 2 3 := by
    refine .atLast (by omega) (by rw [hlines]; rfl) fun j l hj hl => ?_
    rw [hlines] at hl
    match j with
    | 3 =>
      cases hl
      rfl
    | k + 4 => cases hl
  have hd : Program.Defines p.lines "P".toList 2 3 := by
    refine ⟨.definition .start (by rw [hlines]; rfl) rfl hfirst, ⟨_, _, hline, rfl⟩, hsecond⟩
  have ha : Line.Announces ⟨3, none, "to p :x".toList⟩ "P".toList :=
    Line.announces_of_opens? rfl rfl (by simp [Logo.isMark, isQuote]) (by decide)
  have hlast : ∀ j f, Program.Defines p.lines "P".toList j f → j ≤ 2 := by
    intro j f h
    have hlt : j < 4 := by simpa [hlines] using h.lt_length
    by_contra hj
    obtain rfl : j = 3 := by omega
    obtain ⟨params, ho⟩ := h.opens? (by rw [hlines]; rfl)
    cases ho
  exact ⟨p, _, ⟨p, {}, 2⟩, default, hload, hd, hline, ha, rfl,
    (skip_to_last_definition hload hd hline ha 0 rfl default).1.2 hlast⟩

/-- A definition that is repeated further on is not skipped to its own end. -/
theorem first_definition_skipped_past_end :
    ∃ (p : Program) (line : Line),
      Program.load "TO P\nT:one\nEND\nT:between\nTO P\nT:two\nEND\nP".toList = .ok p ∧
      Program.Defines p.lines "P".toList 0 2 ∧ p.line? 0 = some line ∧
      ∀ room settings m, execute room line.text ⟨p, settings, 0⟩ m = .ok (.jump 7) m := by
  obtain ⟨p, line, hload, hline, htext, hend, hbody, htable⟩ : ∃ p line,
      Program.load "TO P\nT:one\nEND\nT:between\nTO P\nT:two\nEND\nP".toList = .ok p ∧
      p.line? 0 = some line ∧ line.text = "TO P".toList ∧
      p.line? 2 = some ⟨3, none, "END".toList⟩ ∧ p.line? 1 = some ⟨2, none, "T:one".toList⟩ ∧
      (p.procedures.get? "P".toList).map Procedure.finish = some 6 :=
    ⟨_, _, rfl, rfl, rfl, rfl, rfl, by decide +kernel⟩
  obtain ⟨q, hq, hf⟩ := Option.map_eq_some_iff.1 htable
  have hopens : line.opens? = some ("P".toList, []) := by rw [Line.opens?, htext]; rfl
  have hcloses : Program.Closes p.lines 0 2 := by
    refine .atEnd (by omega) hend rfl fun j l hj hj' hl => ?_
    obtain rfl : j = 1 := by omega
    cases hbody.symm.trans hl
    rfl
  refine ⟨p, line, hload, ⟨.start, ⟨line, [], hline, hopens⟩, hcloses⟩, hline, fun room _ m => ?_⟩
  have ht : trim line.text = line.text := by rw [htext]; rfl
  have ha : line.Announces "P".toList :=
    Line.announces_of_opens? ht hopens (by simp [htext, Logo.isMark, isQuote]) (by decide)
  rw [execute_define room ht hopens ha m hq, hf]

end Courseware
