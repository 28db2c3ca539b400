import Courseware.Proofs.Command.Reading
import Courseware.Proofs.Expr.Scanning
import Mathlib.Algebra.Group.Nat.Even
import Mathlib.Data.Fin.Tuple.Basic

/-!
Printing a text in quotes.

What is printed is first cut at its separators, where only double quotes protect a separator. Only
then are the pieces read, and now both kinds of quotes make a literal. So a text in double quotes
is always printed, and one in single quotes is torn apart if it holds a separator outside of
double quotes and parentheses. The first piece is then a quote that is not closed.
-/

namespace Courseware.Basic

open Text

/-! ### Separators outside quotes and parentheses -/

/-- A place in a statement: in double quotes or not, and so many parentheses deep. -/
structure Place where
  quoted : Bool
  depth : Int
deriving DecidableEq

variable {p : Place} {current s t : Text} {c q : Char}

/-- The part of a text outside double quotes, where `quoted` tells whether it begins inside. -/
def unquoted (quoted : Bool) : Text → Text
  | [] => []
  | c :: t =>
    if c = '"' then unquoted (!quoted) t
    else if quoted then unquoted quoted t
    else c :: unquoted quoted t

def isSeparator (c : Char) : Bool := c == ';' || c == ','

namespace Place

/-- Outside double quotes and parentheses. -/
def outer : Place := ⟨false, 0⟩

/-- The place behind a character. -/
def after (p : Place) (c : Char) : Place :=
  if c = '"' then ⟨!p.quoted, p.depth⟩
  else if c = '(' ∧ !p.quoted then ⟨p.quoted, p.depth + 1⟩
  else if c = ')' ∧ !p.quoted then ⟨p.quoted, p.depth - 1⟩
  else p

/-- Behind the text all double quotes are closed, and outside of them as many parentheses have been
closed as opened, counting those that were open at its beginning. -/
def LeadsOut (p : Place) (t : Text) : Prop :=
  Even (p.quoted.toNat + t.count '"') ∧
    p.depth + (unquoted p.quoted t).count '(' = (unquoted p.quoted t).count ')'

instance (p : Place) (t : Text) : Decidable (p.LeadsOut t) :=
  inferInstanceAs (Decidable (_ ∧ _))

lemma leadsOut_nil : p.LeadsOut [] ↔ p = outer := by
  obtain ⟨quoted, depth⟩ := p
  cases quoted <;> simp [LeadsOut, unquoted, outer]

lemma leadsOut_cons : p.LeadsOut (c :: t) ↔ (p.after c).LeadsOut t := by
  obtain ⟨quoted, depth⟩ := p
  by_cases hquote : c = '"'
  · subst hquote
    have hparity : Even (quoted.toNat + (t.count '"' + 1)) ↔
        Even ((!quoted).toNat + t.count '"') := by
      cases quoted <;> simp [Nat.even_add, Nat.even_add_one]
    rw [LeadsOut, List.count_cons_self, hparity]
    rfl
  cases quoted with
  | true => simp [LeadsOut, after, unquoted, hquote]
  | false =>
    have hcount : (c :: t).count '"' = t.count '"' := List.count_cons_of_ne hquote
    rw [LeadsOut, hcount, unquoted, if_neg hquote, if_neg Bool.false_ne_true]
    -- outside of quotes, each parenthesis moves the depth
    by_cases hopen : c = '('
    · subst hopen
      have hplace : after ⟨false, depth⟩ '(' = ⟨false, depth + 1⟩ := rfl
      rw [hplace, LeadsOut, List.count_cons_self, List.count_cons_of_ne (by decide)]
      refine and_congr_right fun _ => ?_
      push_cast
      omega
    · by_cases hclose : c = ')'
      · subst hclose
        have hplace : after ⟨false, depth⟩ ')' = ⟨false, depth - 1⟩ := rfl
        rw [hplace, LeadsOut, List.count_cons_self, List.count_cons_of_ne (by decide)]
        refine and_congr_right fun _ => ?_
        push_cast
        omega
      · have hplace : after ⟨false, depth⟩ c = ⟨false, depth⟩ := by
          simp [after, hquote, hopen, hclose]
        rw [hplace, LeadsOut, List.count_cons_of_ne hopen, List.count_cons_of_ne hclose]

end Place

/-- Read from the place `p` on, the text has a separator outside double quotes and parentheses. -/
def Exposed (p : Place) (t : Text) : Prop :=
  ∃ i : Fin t.length, isSeparator (t.get i) = true ∧ p.LeadsOut (t.take i)

instance (p : Place) (t : Text) : Decidable (Exposed p t) :=
  inferInstanceAs (Decidable (∃ _ : Fin t.length, _))

lemma not_exposed_nil : ¬ Exposed p [] := by
  rintro ⟨i, -⟩
  exact i.elim0

lemma exposed_cons : Exposed p (c :: t) ↔
    (isSeparator c = true ∧ p = .outer) ∨ Exposed (p.after c) t := by
  refine Fin.exists_fin_succ.trans (or_congr ?_ ?_)
  · change isSeparator c = true ∧ p.LeadsOut [] ↔ _
    rw [Place.leadsOut_nil]
  · change (∃ i : Fin t.length, isSeparator (t.get i) = true ∧ p.LeadsOut (c :: t.take i)) ↔ _
    simp only [Place.leadsOut_cons]
    rfl

/-- One step of cutting a statement. -/
lemma splitTop_cons (first : Bool) (p : Place) (current : Text) (c : Char) (t : Text) :
    splitTop first p.quoted p.depth current (c :: t) =
      if isSeparator c = true ∧ p = .outer then
        (current.reverse, some c) :: splitTop false false 0 [] t
      else splitTop first (p.after c).quoted (p.after c).depth (c :: current) t := by
  have houter : p = .outer ↔ p.quoted = false ∧ p.depth = 0 := by
    obtain ⟨quoted, depth⟩ := p
    simp [Place.outer]
  have hcut : isSeparator c = true ∧ p = .outer ↔
      (c = ';' ∨ c = ',') ∧ !p.quoted ∧ p.depth = 0 := by
    simp [isSeparator, houter]
  -- what moves the place, a quote or a parenthesis, is no separator
  rw [splitTop, Place.after]
  by_cases hquote : c = '"'
  · subst hquote
    rw [if_pos rfl, if_neg (by simp [isSeparator]), if_pos rfl]
  by_cases hopen : c = '(' ∧ !p.quoted
  · rw [if_neg hquote, if_pos hopen, if_neg (by simp [isSeparator, hopen.1]), if_neg hquote,
      if_pos hopen]
  by_cases hclose : c = ')' ∧ !p.quoted
  · rw [if_neg hquote, if_neg hopen, if_pos hclose, if_neg (by simp [isSeparator, hclose.1]),
      if_neg hquote, if_neg hopen, if_pos hclose]
  rw [if_neg hquote, if_neg hopen, if_neg hclose, if_neg hquote, if_neg hopen, if_neg hclose,
    if_congr hcut rfl rfl]

/-- The first piece ends at a separator, if one is exposed. -/
lemma splitTop_of_exposed (h : Exposed p t) (first : Bool) (current : Text) :
    ∃ s c r rest, isSeparator c = true ∧ t = s ++ c :: r ∧
      splitTop first p.quoted p.depth current t = (current.reverse ++ s, some c) :: rest := by
  induction t generalizing p current with
  | nil => exact absurd h not_exposed_nil
  | cons d t ih =>
    rw [splitTop_cons]
    by_cases hcut : isSeparator d = true ∧ p = .outer
    · refine ⟨[], d, t, splitTop false false 0 [] t, hcut.1, rfl, ?_⟩
      rw [if_pos hcut, List.append_nil]
    · obtain ⟨s, c, r, rest, hc, ht, hsplit⟩ :=
        ih ((exposed_cons.1 h).resolve_left hcut) (d :: current)
      refine ⟨d :: s, c, r, rest, hc, by rw [ht, List.cons_append], ?_⟩
      rw [if_neg hcut, hsplit, List.reverse_cons, List.append_assoc, List.singleton_append]

/-- Otherwise the text is one piece. -/
lemma splitTop_of_not_exposed (h : ¬ Exposed p t) (current : Text) :
    splitTop true p.quoted p.depth current t = [(current.reverse ++ t, none)] := by
  induction t generalizing p current with
  | nil => simp [splitTop]
  | cons d t ih =>
    rw [exposed_cons, not_or] at h
    rw [splitTop_cons, if_neg h.1, ih h.2, List.reverse_cons, List.append_assoc,
      List.singleton_append]

/-! ### Texts in quotes -/

lemma not_exposed_of_quoted (hp : p.quoted = true) (ht : '"' ∉ t) (c : Char) :
    ¬ Exposed p (t ++ [c]) := by
  rintro ⟨⟨i, hi⟩, -, heven, -⟩
  have hle : i ≤ t.length := by
    rw [List.length_append, List.length_singleton] at hi
    omega
  have hcount : ((t ++ [c]).take i).count '"' = 0 := by
    rw [List.take_append_of_le_length hle, List.count_eq_zero]
    exact fun h => ht (List.mem_of_mem_take h)
  rw [hcount, hp] at heven
  exact absurd heven (by decide)

lemma exposed_append_singleton (hc : isSeparator c = false) :
    Exposed p (t ++ [c]) ↔ Exposed p t := by
  induction t generalizing p with
  | nil => simp [exposed_cons, not_exposed_nil, hc]
  | cons d t ih => rw [List.cons_append, exposed_cons, exposed_cons, ih]

/-- Double quotes protect every separator between them, and single ones protect none. -/
lemma exposed_literal (hq : isQuote q = true) (ht : q ∉ t) :
    Exposed .outer (q :: (t ++ [q])) ↔ q = '\'' ∧ Exposed .outer t := by
  rw [exposed_cons]
  rcases eq_or_of_isQuote hq with rfl | rfl
  · have hinside : ¬ Exposed (Place.outer.after '"') (t ++ ['"']) :=
      not_exposed_of_quoted rfl ht '"'
    simp [isSeparator, hinside]
  · have hplace : Place.outer.after '\'' = .outer := rfl
    rw [hplace, exposed_append_singleton rfl]
    simp [isSeparator]

/-! ### The statement -/

/-- A literal in one piece is printed as it is. -/
lemma printItems_literal (hq : isQuote q = true) (ht : q ∉ t)
    (h : ¬ Exposed .outer (q :: (t ++ [q]))) :
    Statement.printItems none (topPieces (q :: (t ++ [q]))) = [⟨false, .literal t⟩] := by
  have hpieces : topPieces (q :: (t ++ [q])) = [(q :: (t ++ [q]), none)] :=
    splitTop_of_not_exposed h []
  have hblank := isBlank_of_isQuote hq
  have hcontent : Content.ofText (q :: (t ++ [q])) = .literal t := by
    rw [Content.ofText, quoted?_of_not_mem hq ht]
  rw [hpieces, Statement.printItems, trim_of_ends hblank hblank, hcontent]
  rfl

/-- Of a literal that is torn apart, the first piece is read as an expression. -/
lemma printItems_torn (hq : isQuote q = true) (ht : q ∉ t)
    (h : Exposed .outer (q :: (t ++ [q]))) :
    ∃ s rest, q ∉ s ∧ Statement.printItems none (topPieces (q :: (t ++ [q]))) =
      ⟨false, .expr (q :: s)⟩ :: rest := by
  obtain ⟨s, c, r, rest, hc, hs, hpieces⟩ := splitTop_of_exposed h true []
  have hblank := isBlank_of_isQuote hq
  cases s with
  | nil =>
    -- the quote itself is no separator
    obtain ⟨rfl, -⟩ := List.cons_eq_cons.1 hs
    rcases eq_or_of_isQuote hq with rfl | rfl <;> cases hc
  | cons d a =>
    obtain ⟨rfl, ha⟩ : q = d ∧ t ++ [q] = a ++ c :: r := List.cons_eq_cons.1 hs
    -- the piece ends before the closing quote
    have hle : a.length ≤ t.length := by
      have hlength := congrArg List.length ha
      simp only [List.length_append, List.length_cons, List.length_nil] at hlength
      omega
    have hstart : a <+: t :=
      List.prefix_of_prefix_length_le ⟨c :: r, ha.symm⟩ (List.prefix_append t [q]) hle
    have hmem : q ∉ trimEnd a := fun hm => ht (((trimEnd_prefix_self a).trans hstart).mem hm)
    have hcontent : Content.ofText (q :: trimEnd a) = .expr (q :: trimEnd a) := by
      rw [Content.ofText, quoted?_of_unclosed hq hmem]
    have htrim : trim (q :: a) = q :: trimEnd a := by
      rw [trim, trimStart_cons_of_not_blank hblank, trimEnd_cons_of_not_blank hblank]
    refine ⟨trimEnd a, Statement.printItems (some c) rest, hmem, ?_⟩
    have hsplit : topPieces (q :: (t ++ [q])) = (q :: a, some c) :: rest := hpieces
    rw [hsplit, Statement.printItems, htrim, hcontent]
    rfl

/-- The value of an expression that begins with a quote and does not close it. -/
lemma evaluate_of_unclosed (hq : isQuote q = true) (hs : q ∉ s) (env : Environment) (m : Machine) :
    Exec.evaluate (q :: s) env m = .error (.eval (.malformed .unterminatedText) false) m := by
  have hvalue : Expr.evaluate m.vars env.settings.limits (q :: s) m.random =
      .error (.malformed .unterminatedText) m.random := by
    rw [Expr.evaluate, Expr.Token.tokenize_of_unclosed hq hs]
    rfl
  rw [Exec.evaluate, hvalue]

lemma run_print_torn (hq : isQuote q = true) (ht : q ∉ t)
    (h : Exposed .outer (q :: (t ++ [q]))) (env : Environment) (m : Machine) :
    (Statement.ofKeyword .print (q :: (t ++ [q]))).run env m =
      .error (.eval (.malformed .unterminatedText) false) m := by
  obtain ⟨s, rest, hs, hitems⟩ := printItems_torn hq ht h
  have hprinted : printed (⟨false, .expr (q :: s)⟩ :: rest) env m =
      .error (.eval (.malformed .unterminatedText) false) m :=
    Exec.bind_of_error (evaluate_of_unclosed hq hs env m)
  rw [Statement.ofKeyword, hitems]
  exact Exec.bind_of_error hprinted

lemma run_print_literal (hq : isQuote q = true) (ht : q ∉ t)
    (h : ¬ Exposed .outer (q :: (t ++ [q]))) (env : Environment) (m : Machine) :
    (Statement.ofKeyword .print (q :: (t ++ [q]))).run env m =
      .ok .next (m.emit (.text (m.vars.interpolate t))) := by
  have hprinted : printed [⟨false, .literal t⟩] env m = .ok (m.vars.interpolate t ++ []) m := rfl
  rw [List.append_nil] at hprinted
  rw [Statement.ofKeyword, printItems_literal hq ht h]
  exact Exec.bind_of_ok hprinted

lemma endsName_literal {b : Text} (hb : b.all isBlank = true) (hq : isQuote q = true) (r : Text) :
    EndsName (b ++ q :: r) := by
  cases b with
  | nil =>
    rintro c ⟨⟩
    rcases eq_or_of_isQuote hq with rfl | rfl <;> exact ⟨rfl, by decide⟩
  | cons d b =>
    rw [List.all_cons, Bool.and_eq_true] at hb
    exact endsName_blank hb.1 _

lemma execute_print {w b : Text} (hw : upper w = "PRINT".toList) (hb : b.all isBlank = true)
    (hq : isQuote q = true) (t : Text) (room : Nat) (env : Environment) (m : Machine) :
    execute room (w ++ (b ++ q :: (t ++ [q]))) env m =
      (Statement.ofKeyword .print (q :: (t ++ [q]))).run env m := by
  have hkeyword : Keyword.ofName? (upper w) = some .print := by rw [hw]; rfl
  have hblank := isBlank_of_isQuote hq
  rw [Command.execute_keyword hkeyword (by decide) (endsName_literal hb hq _),
    (solid_of_ends hblank hblank t).trim_append hb]

/-- **Printing a text in quotes prints what is between them**, with the values of variables put in.
The exception is a text in single quotes with a separator outside of double quotes and
parentheses, which fails and prints nothing. -/
theorem print_of_quoted {w b : Text} (hw : upper w = "PRINT".toList) (hb : b.all isBlank = true)
    (hq : isQuote q = true) (ht : q ∉ t) (room : Nat) (env : Environment) (m : Machine) :
    execute room (w ++ (b ++ q :: (t ++ [q]))) env m =
      if q = '\'' ∧ Exposed .outer t then .error (.eval (.malformed .unterminatedText) false) m
      else .ok .next (m.emit (.text (m.vars.interpolate t))) := by
  rw [execute_print hw hb hq, ← if_congr (exposed_literal hq ht) rfl rfl]
  split
  · next htorn => exact run_print_torn hq ht htorn env m
  · next hwhole => exact run_print_literal hq ht hwhole env m

/-- In single quotes, parentheses and double quotes still protect separators. -/
theorem print_of_quoted_nested :
    upper "Print".toList = "PRINT".toList ∧ '\'' ∉ "(a, b) \"c; )\"".toList ∧
      execute 0 "Print'(a, b) \"c; )\"'".toList ⟨{}, {}, 0⟩ default =
        .ok .next ((default : Machine).emit (.text "(a, b) \"c; )\"".toList)) := by
  have ht : '\'' ∉ "(a, b) \"c; )\"".toList := by decide
  have hprint := print_of_quoted (w := "Print".toList) (b := []) (q := '\'') rfl rfl rfl ht 0
    ⟨{}, {}, 0⟩ default
  have hsame : (default : Machine).vars.interpolate "(a, b) \"c; )\"".toList =
      "(a, b) \"c; )\"".toList := by with_unfolding_all rfl
  rw [if_neg (by decide), hsame] at hprint
  exact ⟨rfl, ht, hprint⟩

/-- A semicolon between single quotes makes the statement fail. -/
theorem print_single_quotes_torn :
    '\'' ∉ "a;b".toList ∧ '\n' ∉ "a;b".toList ∧
      execute 0 "PRINT 'a;b'".toList ⟨{}, {}, 0⟩ default =
        .error (.eval (.malformed .unterminatedText) false) default := by
  have ht : '\'' ∉ "a;b".toList := by decide
  have hexecute := execute_print (w := "PRINT".toList) (b := " ".toList) (q := '\'') rfl rfl rfl
    "a;b".toList 0 ⟨{}, {}, 0⟩ default
  exact ⟨ht, by decide, hexecute.trans (run_print_torn rfl ht (by decide) _ _)⟩

end Courseware.Basic
