import Courseware.Proofs.Command.Composition
import Courseware.Proofs.Command.Family
import Courseware.Proofs.Text.Trimming

/-!
How a command is read that begins with a keyword, with a name and an equals sign, or with a letter
and a colon.

A keyword of BASIC has more than one letter and is no code of PILOT. So whatever follows it is its
argument, if only it does not continue the word.
-/

namespace Courseware

open Text

variable {w a t : Text} {k : Basic.Keyword} {c : Char}

namespace Pilot

lemma isCode_eq_false (hlen : 2 ≤ t.length) (hlong : upper t ∉ longCodes) : isCode t = false := by
  unfold isCode
  split
  · next d => simp at hlen
  · simpa using hlong

/-- There is no code if what stands before the first colon begins with something that no code
begins with. -/
lemma split?_eq_none (hcolon : ':' ∉ w) (hcode : ∀ s, isCode (w ++ s) = false) (a : Text) :
    split? (w ++ a) = none := by
  unfold split?
  rw [cut?_append_of_not_mem hcolon]
  cases cut? ':' a with
  | none => rfl
  | some x => simp [hcode]

end Pilot

/-! ### Keywords -/

namespace Basic.Keyword

lemma name_spec {n : Text} (h : ofName? n = some k) :
    n.all isNameStart = true ∧ 2 ≤ n.length ∧ n ∉ Pilot.longCodes := by
  have hall : ∀ x ∈ names,
      x.1.all isNameStart = true ∧ 2 ≤ x.1.length ∧ x.1 ∉ Pilot.longCodes := by decide
  obtain ⟨l, r, hnames, -⟩ := List.lookup_eq_some_iff.1 h
  exact hall (n, k) (by rw [hnames]; simp)

lemma isNameStart_of_mem (h : ofName? (upper w) = some k) (hc : c ∈ w) : isNameStart c = true := by
  have hupper := List.all_eq_true.1 (name_spec h).1 c.toUpper (List.mem_map_of_mem hc)
  rwa [isNameStart_toUpper] at hupper

lemma two_le_length (h : ofName? (upper w) = some k) : 2 ≤ w.length := by
  simpa [upper] using (name_spec h).2.1

lemma all_isNameChar (h : ofName? (upper w) = some k) : w.all isNameChar = true :=
  List.all_eq_true.2 fun _ hc => isNameChar_of_isNameStart (isNameStart_of_mem h hc)

/-- A keyword does not make a code, with or without something behind it. -/
lemma isCode_append (h : ofName? (upper w) = some k) (a : Text) :
    Pilot.isCode (w ++ a) = false := by
  have hlen := two_le_length h
  refine Pilot.isCode_eq_false (by rw [List.length_append]; omega) fun hmem => ?_
  -- the codes of two letters leave no room for anything behind the keyword
  have htwo : ∀ code ∈ Pilot.longCodes, code.length = 2 := by decide
  have hsum : w.length + a.length = 2 := by simpa [upper] using htwo _ hmem
  obtain rfl : a = [] := List.length_eq_zero_iff.1 (by omega)
  rw [List.append_nil] at hmem
  exact (name_spec h).2.2 hmem

lemma split?_append (h : ofName? (upper w) = some k) (a : Text) :
    Pilot.split? (w ++ a) = none := by
  have hcolon : ':' ∉ w := fun hc => absurd (isNameStart_of_mem h hc) (by decide)
  exact Pilot.split?_eq_none hcolon (isCode_append h) a

lemma classify_append (h : ofName? (upper w) = some k) (ha : EndsName a) :
    Family.classify (w ++ a) = .basic := by
  have hbasic : Family.isBasic (w ++ a) = true := by
    rw [Family.isBasic, Family.leadingWord, splitName_append (all_isNameChar h) ha, h]
    rfl
  rw [Family.classify, split?_append h, hbasic]
  rfl

end Basic.Keyword

namespace Command

/-- White space around a command does not matter. -/
lemma read_trim (p : Program) (t : Text) : read p (trim t) = read p t := by
  rw [read.eq_def, read.eq_def p t, trim_trim]

lemma splitBasic_append (h : Basic.Keyword.ofName? (upper w) = some k) (ha : EndsName a) :
    splitBasic (w ++ a) = (some k, trim a) := by
  rw [splitBasic, splitName_append (Basic.Keyword.all_isNameChar h) ha]
  dsimp only
  rw [h]

/-- A statement, other than `IF`, that begins with its keyword. -/
lemma read_keyword (p : Program) (h : Basic.Keyword.ofName? (upper w) = some k)
    (hk : k ≠ .ifThen) (ha : EndsName a) :
    read p (w ++ a) = .basic (.ofKeyword k (trim a)) := by
  have hne : w ≠ [] := List.ne_nil_of_length_pos (by have := Basic.Keyword.two_le_length h; omega)
  have hblank : ∀ c ∈ w, isBlank c = false := fun c hc =>
    (of_isNameStart (Basic.Keyword.isNameStart_of_mem h hc)).1
  have hsplit := splitBasic_append h ha.trimEnd
  rw [read, trim_append_of_not_blank hne hblank, Basic.Keyword.classify_append h ha.trimEnd]
  dsimp only
  -- only the branch of the keyword is possible
  split
  · next rest heq =>
    rw [hsplit] at heq
    cases heq
    exact absurd rfl hk
  · next k' rest _ heq =>
    rw [hsplit] at heq
    cases heq
    rw [trim_trimEnd]
  · next heq =>
    rw [hsplit] at heq
    cases heq

/-- Such a statement is executed. -/
lemma execute_keyword (h : Basic.Keyword.ofName? (upper w) = some k) (hk : k ≠ .ifThen)
    (ha : EndsName a) (room : Nat) (env : Environment) (m : Machine) :
    execute room (w ++ a) env m = (Basic.Statement.ofKeyword k (trim a)).run env m := by
  obtain ⟨enter, he⟩ := execute_eq room (w ++ a) env m
  rw [he, read_keyword env.program h hk ha]
  rfl

/-! ### Assignments -/

/-- The name that a text begins with, and the rest, make up the text. -/
lemma splitName_spec (t : Text) :
    (splitName t).1 ++ (splitName t).2 = t ∧ ':' ∉ (splitName t).1 := by
  have hall : ':' ∉ t.takeWhile isNameChar := fun hc =>
    absurd (List.mem_takeWhile_imp hc) (by decide)
  have happend := List.takeWhile_append_dropWhile (p := isNameChar) (l := t)
  unfold splitName
  split
  · next r hr =>
    rw [hr] at happend
    refine ⟨by simpa using happend, ?_⟩
    simpa using hall
  · exact ⟨happend, hall⟩

/-- In an assignment, an equals sign comes before any colon, and something before it. -/
lemma of_isAssignment (h : Family.isAssignment t = true) :
    ∃ x r, t = x ++ '=' :: r ∧ x ≠ [] ∧ ':' ∉ x := by
  obtain ⟨happend, hcolon⟩ := splitName_spec t
  rw [Family.isAssignment, Bool.and_eq_true] at h
  obtain ⟨hname, hequals⟩ := h
  generalize (splitName t).1 = w at *
  generalize (splitName t).2 = rest at *
  have hblanks := List.takeWhile_append_dropWhile (p := isBlank) (l := rest)
  -- the name may have white space after it
  obtain ⟨r, hr⟩ : ∃ r, trimStart rest = '=' :: r := by
    split at hequals
    · cases hequals
    · next r _ heq => exact ⟨r, heq⟩
    · cases hequals
  refine ⟨w ++ rest.takeWhile isBlank, r, ?_, ?_, ?_⟩
  · rw [List.append_assoc, ← hr, trimStart, hblanks, happend]
  · rintro hnil
    rw [(List.append_eq_nil_iff.1 hnil).1] at hname
    cases hname
  · rw [List.mem_append, not_or]
    exact ⟨hcolon, fun hc => absurd (List.mem_takeWhile_imp hc) (by decide)⟩

/-- A code has no equals sign in it. -/
lemma split?_of_isAssignment (h : Family.isAssignment t = true) : Pilot.split? t = none := by
  obtain ⟨x, r, rfl, hne, hcolon⟩ := of_isAssignment h
  have hpos := List.length_pos_of_ne_nil hne
  have hcode : ∀ s, Pilot.isCode (x ++ ['='] ++ s) = false := by
    intro s
    refine Pilot.isCode_eq_false (by simp; omega) fun hmem => ?_
    have hplain : ∀ code ∈ Pilot.longCodes, '=' ∉ code := by decide
    exact hplain _ hmem (by simp [upper])
  rw [List.append_cons]
  exact Pilot.split?_eq_none (by simpa using hcolon) hcode r

/-- An assignment without a keyword. -/
lemma read_assignment (p : Program) (h : Family.isAssignment (trim t) = true)
    (hk : Basic.Keyword.ofName? (upper (Family.leadingWord (trim t))) = none) :
    read p t = .basic (.readAssign (trim t)) := by
  have hclass : Family.classify (trim t) = .basic := by
    rw [Family.classify, split?_of_isAssignment h, Family.isBasic, h, Bool.or_true]
    rfl
  have hsplit : splitBasic (trim t) = (none, trim t) := by
    rw [Family.leadingWord] at hk
    rw [splitBasic, hk]
  rw [read, hclass]
  dsimp only
  split
  · next heq =>
    rw [hsplit] at heq
    cases heq
  · next heq =>
    rw [hsplit] at heq
    cases heq
  · rfl

/-! ### Codes -/

/-- A command of PILOT with a code of one letter. -/
lemma read_code (p : Program) (hc : c.isAlpha = true) (a : Text) :
    read p (c :: ':' :: a) =
      .pilot (.ofCode (c :: ':' :: trimEnd a) [c.toUpper] (trim a)) := by
  have hstart : isNameStart c = true := by simp [isNameStart, isAlphabetic_of_isAlpha hc]
  have hblank : ∀ d ∈ [c, ':'], isBlank d = false := by
    simp only [List.forall_mem_cons, List.not_mem_nil, false_implies, implies_true, and_true]
    exact ⟨(of_isNameStart hstart).1, by decide⟩
  have hsplit : Pilot.split? (c :: ':' :: trimEnd a) = some ([c.toUpper], trimEnd a) := by
    have hcolon : c ≠ ':' := by
      rintro rfl
      exact absurd hc (by decide)
    have hcode : Pilot.isCode [c] = true := hc
    simp [Pilot.split?, cut?, hcolon, hcode, upper]
  have hclass : Family.classify (c :: ':' :: trimEnd a) = .pilot := by
    rw [Family.classify, hsplit]
    rfl
  have htrim : trim (c :: ':' :: a) = c :: ':' :: trimEnd a :=
    trim_append_of_not_blank (List.cons_ne_nil _ _) hblank a
  rw [read, htrim, hclass]
  dsimp only
  rw [hsplit]
  dsimp only
  rw [trim_trimEnd]

end Command

end Courseware
