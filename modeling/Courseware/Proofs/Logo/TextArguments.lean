import Courseware.Program.Loading
import Courseware.Proofs.Command.Composition
import Courseware.Proofs.Command.Family
import Courseware.Proofs.Logo.Reading
import Courseware.Proofs.Logo.References

/-!
Texts that are passed to procedures.

An argument is put into the lines of a procedure as a text in quotes. The lines are then read as if
they had been written so, and references are replaced in them also inside of quotes. So a
procedure that prints its argument prints it as it is, unless a name follows a colon in the
argument.
-/

namespace Courseware

open Text

variable {t r rest : Text} {c q : Char}

/-! ### Texts without references -/

namespace Logo

/-- Somewhere a name follows a colon. -/
def mentions : Text → Bool
  | [] => false
  | c :: r => (c == ':' && r.head?.any isNameStart) || mentions r

lemma mentions_append_cons (hc : isNameStart c = false) (t r : Text) :
    mentions (t ++ c :: r) = (mentions t || mentions (c :: r)) := by
  induction t with
  | nil => rfl
  | cons d t ih =>
    have hhead : ((t ++ c :: r).head?.any isNameStart) = t.head?.any isNameStart := by
      cases t with
      | nil => exact hc
      | cons e t => rfl
    rw [List.cons_append, mentions, mentions, ih, hhead, Bool.or_assoc]

lemma mentions_of_suffix (h : r <:+ t) (ht : mentions t = false) : mentions r = false := by
  obtain ⟨s, rfl⟩ := h
  induction s with
  | nil => exact ht
  | cons d s ih =>
    rw [List.cons_append, mentions, Bool.or_eq_false_iff] at ht
    exact ih ht.2

/-- Without references there is nothing to replace. -/
lemma expand_of_not_mentions {vars : Variables} (h : mentions t = false) :
    expand vars t = .ok t := by
  induction t with
  | nil => rw [expand]
  | cons c t ih =>
    rw [mentions, Bool.or_eq_false_iff] at h
    have hc : ¬ (c = ':' ∧ t.head?.any isNameStart = true) := by
      rintro ⟨rfl, ht⟩
      rw [ht] at h
      cases h.1
    rw [expand, if_neg hc, ih h.2]
    rfl

/-- What follows a colon without being a name is no parameter. -/
lemma lookup_of_not_mentions {x : Text} (hx : isName x = true) (v : Value)
    (h : r.head?.any isNameStart = false) :
    (if r.takeWhile isNameChar = [] then none
      else [(upper x, v)].lookup (upper (r.takeWhile isNameChar))) = none := by
  split
  · rfl
  · next hname =>
    have hne : upper (r.takeWhile isNameChar) ≠ upper x := by
      intro heq
      cases r with
      | nil => exact hname rfl
      | cons d r =>
        by_cases hd : isNameChar d = true
        · cases x with
          | nil => cases hx
          | cons e x =>
            rw [List.takeWhile_cons_of_pos hd] at heq
            have hup : d.toUpper = e.toUpper := (List.cons.inj heq).1
            rw [isName, Bool.and_eq_true] at hx
            -- a parameter begins with a letter, and letters do not depend on the case
            have hstart : isNameStart e = true := hx.1
            rw [← isNameStart_toUpper, ← hup, isNameStart_toUpper] at hstart
            exact absurd h (by simp [hstart])
        · exact hname (List.takeWhile_cons_of_neg hd)
    simp [List.lookup_cons, beq_eq_false_iff_ne.2 hne]

/-- Without references there are no parameters. -/
lemma substitute_of_not_mentions {x : Text} (hx : isName x = true) (v : Value)
    (h : mentions t = false) : substitute [(upper x, v)] t = .ok t := by
  induction hn : t.length using Nat.strongRecOn generalizing t with
  | ind n ih =>
    subst hn
    cases t with
    | nil => rw [substitute]
    | cons c r =>
      rw [mentions, Bool.or_eq_false_iff] at h
      by_cases hc : c = ':'
      · -- a colon without a name stays, with the letters after it
        have hrest := ih (r.dropWhile isNameChar).length
          (Nat.lt_succ_of_le (length_dropWhile_le isNameChar r))
          (mentions_of_suffix (List.dropWhile_suffix isNameChar) h.2) rfl
        subst hc
        rw [substitute, if_pos rfl]
        dsimp only
        rw [lookup_of_not_mentions hx v (by simpa using h.1), hrest]
        simp [Except.map]
      · rw [substitute, if_neg hc, ih r.length (Nat.lt_succ_self _) h.2 rfl]
        rfl

/-! ### A line that prints two texts joined -/

/-- A text in quotes of the kind `q`. -/
def inQuotes (q : Char) (t : Text) : Text := q :: (t ++ [q])

lemma quote?_eq (h : '"' ∉ t ∨ '\'' ∉ t) :
    ∃ q, isQuote q = true ∧ q ∉ t ∧ quote? t = some (inQuotes q t) := by
  by_cases hd : '"' ∈ t
  · have hs : '\'' ∉ t := h.resolve_left fun hn => hn hd
    refine ⟨'\'', rfl, hs, ?_⟩
    rw [quote?, if_neg (by simpa using hd), if_pos hs]
    rfl
  · refine ⟨'"', rfl, hd, ?_⟩
    rw [quote?, if_pos hd]
    rfl

lemma spliced_text {v : Text} (h : quote? v = some r) : spliced (.text v) = .ok r := by
  rw [spliced, h]

lemma mentions_inQuotes (hq : isQuote q = true) (t : Text) :
    mentions (inQuotes q t) = mentions t := by
  have hstart : isNameStart q = false ∧ q ≠ ':' := by
    rcases eq_or_of_isQuote hq with rfl | rfl <;> exact ⟨by decide, by decide⟩
  rw [inQuotes, mentions, mentions_append_cons hstart.1]
  simp [mentions, hstart.2]

/-- The expression `a + "s"`. -/
def joined (a s : Text) : Text := a ++ ' ' :: '+' :: ' ' :: inQuotes '"' s

lemma mentions_joined {a s : Text} (ha : mentions a = false) (hs : mentions s = false) :
    mentions (joined a s) = false := by
  rw [joined, mentions_append_cons (by decide), ha]
  simp [mentions, mentions_inQuotes (q := '"') rfl, hs]

/-- The argument takes the place of the parameter. -/
lemma substitute_joined {x v s : Text} (hx : isName x = true) (hv : quote? v = some r)
    (hs : mentions s = false) :
    substitute [(upper x, .text v)] ("PR ".toList ++ joined (':' :: x) s) =
      .ok ("PR ".toList ++ joined r s) := by
  obtain ⟨tail, htail⟩ : ∃ tail, tail = ' ' :: '+' :: ' ' :: inQuotes '"' s := ⟨_, rfl⟩
  -- behind the parameter nothing is replaced
  have hrest : substitute [(upper x, .text v)] tail = .ok tail := by
    refine substitute_of_not_mentions hx _ ?_
    rw [htail]
    exact mentions_joined (a := []) rfl hs
  have hword := hx
  rw [isName, Bool.and_eq_true] at hword
  have hends : ∀ c, tail.head? = some c → isNameChar c = false := by
    rw [htail]
    rintro c ⟨⟩
    decide
  obtain ⟨htake, hdrop⟩ := takeWhile_append_of_all hword.2 hends
  have hne : x ≠ [] := by
    rintro rfl
    cases hx
  have hline : "PR ".toList ++ joined (':' :: x) s = 'P' :: 'R' :: ' ' :: ':' :: (x ++ tail) := by
    rw [htail]
    rfl
  rw [hline, substitute, if_neg (by decide), substitute, if_neg (by decide), substitute,
    if_neg (by decide), substitute, if_pos rfl]
  dsimp only
  rw [htake, hdrop, if_neg hne, hrest]
  simp only [List.lookup_cons, beq_self_eq_true, spliced_text hv]
  rw [htail]
  rfl

/-! ### Reading the line -/

lemma splitFrom_plain {current : Text} (hb : isBlank c = false) (hm : isMark c = false)
    (t : Text) : splitFrom current (c :: t) = splitFrom (c :: current) t := by
  simp only [isMark, Bool.or_eq_false_iff, beq_eq_false_iff_ne] at hm
  rw [splitFrom, if_neg (by simp [hb]), if_neg hm.1.1.1, if_neg hm.1.1.2, if_neg hm.1.2,
    if_neg (by simp [hm.2])]

lemma splitFrom_blank {current : Text} (hb : isBlank c = true) (t : Text) :
    splitFrom current (c :: t) = (splitFrom [] t).map (flush current) := by
  rw [splitFrom, if_pos hb]

/-- A text in quotes is one word. -/
lemma splitFrom_inQuotes (hq : isQuote q = true) (ht : q ∉ t) (hr : endsQuoted r = true) :
    splitFrom [] (inQuotes q t ++ r) = (splitFrom [] r).map (.atom (inQuotes q t) :: ·) := by
  have hplain : isBlank q = false ∧ q ≠ ';' ∧ q ≠ '[' ∧ q ≠ ']' := by
    rcases eq_or_of_isQuote hq with rfl | rfl <;> exact ⟨by decide, by decide, by decide, by decide⟩
  obtain ⟨hblank, hsemi, hopen, hclose⟩ := hplain
  have hword : quotedWord? q (t ++ q :: r) = some (inQuotes q t, r) := by
    rw [quotedWord?, cut?_append ht]
    exact if_pos hr
  have htext : inQuotes q t ++ r = q :: (t ++ q :: r) := by simp [inQuotes]
  rw [htext, splitFrom, if_neg (by simp [hblank]), if_neg hsemi, if_neg hopen, if_neg hclose,
    if_pos ⟨hq, rfl⟩]
  split
  · next heq =>
    cases heq.symm.trans hword
    rfl
  · next heq => cases heq.symm.trans hword

variable {s : Text}

lemma splitWords_joined (hq : isQuote q = true) (ht : q ∉ t) (hs : '"' ∉ s) :
    splitWords ("PR ".toList ++ joined (inQuotes q t) s) =
      .ok [.atom "PR".toList, .atom (inQuotes q t), .atom ['+'], .atom (inQuotes '"' s)] := by
  have hlast : splitFrom [] (inQuotes '"' s) = .ok [.atom (inQuotes '"' s)] := by
    have h := splitFrom_inQuotes (q := '"') (r := []) rfl hs rfl
    rw [List.append_nil, splitFrom] at h
    exact h
  have hline : "PR ".toList ++ joined (inQuotes q t) s = 'P' :: 'R' :: ' ' ::
      (inQuotes q t ++ ' ' :: '+' :: ' ' :: inQuotes '"' s) := rfl
  rw [splitWords, hline, splitFrom_plain (by decide) (by decide),
    splitFrom_plain (by decide) (by decide), splitFrom_blank (by decide),
    splitFrom_inQuotes hq ht rfl, splitFrom_blank (by decide),
    splitFrom_plain (by decide) (by decide), splitFrom_blank (by decide), hlast]
  rfl

lemma takeExpression_joined {a : Text} (ha : a ≠ []) (w : Text) :
    takeExpression [] [.atom a, .atom ['+'], .atom w] = (a ++ ' ' :: '+' :: ' ' :: w, []) := by
  have hends : continues (a ++ [' ', '+']) w = true := by
    simp [continues, endsWithOperator, isOperatorChar]
  have hplus : continues a ['+'] = true := by
    simp [continues, startsWithOperator, isOperatorChar]
  rw [takeExpression, if_pos (by simp [continues]), if_pos rfl, takeExpression, if_pos hplus,
    if_neg ha, takeExpression, if_pos hends, if_neg (by simp), takeExpression]
  · simp
  · intro w r h
    cases h

lemma sentences_joined (p : Program) {a : Text} (ha : a ≠ []) (s : Text) :
    sentences p [.atom "PR".toList, .atom a, .atom ['+'], .atom (inQuotes '"' s)] =
      [.simple (.print (.expr (joined a s)))] := by
  have hphrase : readPhrase p "PR".toList [.atom a, .atom ['+'], .atom (inQuotes '"' s)] =
      (.simple (.print (.expr (joined a s))), []) := by
    have hprint : readPrint "PR".toList [.atom a, .atom ['+'], .atom (inQuotes '"' s)] =
        (.print (.expr (joined a s)), []) := by
      rw [readPrint, takeArg, takeExpression_joined ha]
      rfl
    have hverb : Verb.ofName? (upper "PR".toList) = some .print := rfl
    unfold readPhrase
    rw [hverb]
    dsimp only
    rw [hprint]
  rw [sentences_simple hphrase, sentences]

lemma trim_joined (a s : Text) :
    trim ("PR ".toList ++ joined a s) = "PR ".toList ++ joined a s := by
  have h := trim_of_ends (c := 'P') (d := '"') (by decide) (by decide)
    ('R' :: ' ' :: (a ++ ' ' :: '+' :: ' ' :: '"' :: s))
  simpa [joined, inQuotes] using h

lemma not_stop_joined (a s : Text) :
    sameWord (trim ("PR ".toList ++ joined a s)) "STOP".toList = false := by
  rw [trim_joined]
  rfl

/-- **The line prints the expression.** -/
lemma read_joined (p : Program) (hq : isQuote q = true) (ht : q ∉ t) (hs : '"' ∉ s) :
    Command.read p ("PR ".toList ++ joined (inQuotes q t) s) =
      .logo [.simple (.print (.expr (joined (inQuotes q t) s)))] := by
  have hassign : Family.isAssignment ("PR".toList ++ ' ' :: joined (inQuotes q t) s) = false := by
    rw [Family.isAssignment, splitName_append (by decide) (endsName_blank (by decide) _)]
    dsimp only
    rw [trimStart_cons_of_blank (by decide)]
    rcases eq_or_of_isQuote hq with rfl | rfl <;> rfl
  have hclass : Family.classify ("PR ".toList ++ joined (inQuotes q t) s) = .logo :=
    classify_verb (w := "PR".toList) rfl (by decide) _ rfl rfl hassign
  rw [Command.read, trim_joined, hclass]
  dsimp only
  rw [Command.readBlock, splitWords_joined hq ht hs]
  exact congrArg Command.logo (sentences_joined p (by simp [inQuotes]) s)

/-- The expression is no literal. -/
lemma literal?_joined (hq : isQuote q = true) (ht : q ∉ t) (s : Text) :
    literal? (joined (inQuotes q t) s) = none := by
  have hq' := eq_or_of_isQuote hq
  have hblank : isBlank q = false := by
    rcases hq' with rfl | rfl <;> rfl
  have htrim : trim (joined (inQuotes q t) s) =
      q :: (t ++ q :: ' ' :: '+' :: ' ' :: inQuotes '"' s) := by
    have h := trim_of_ends (d := '"') hblank (by decide) (t ++ q :: ' ' :: '+' :: ' ' :: '"' :: s)
    simpa [joined, inQuotes] using h
  have hquoted : quoted? (joined (inQuotes q t) s) = none := by
    rw [quoted?, htrim]
    dsimp only
    rw [if_pos hq, cut?_append ht]
  unfold literal?
  rw [hquoted]
  -- a double quote alone at the start makes a literal too, but here there are others
  rcases hq' with rfl | rfl
  · have hmem : '"' ∈ t ++ ['"'] ++ ' ' :: '+' :: ' ' :: inQuotes '"' s := by simp
    exact if_pos hmem
  · rfl

/-! ### What the expression is worth -/

end Logo

namespace Expr

open Token

variable {vars : Variables} {limits : Limits} {v s : Text}

/-- Texts are added by joining them. -/
lemma evaluate_joined
    (h : Reads vars true t [.literal (.text v), .operator (.binary .add), .literal (.text s)])
    (hlimit : 3 ≤ limits.maxTokens) : evaluate vars limits t = pure (.text (v ++ s)) := by
  have hcode : postfixForm limits
      [.literal (.text v), .operator (.binary .add), .literal (.text s)] =
        .ok [.push (.text v), .push (.text s), .apply (.binary .add)] := by
    refine (postfixForm_cons limits _ _).trans ((Counted.convert_of_ok rfl).trans ?_)
    rw [Counted.convert_of_ok rfl, Counted.convert_of_ok rfl, Counted.convert]
    rfl
  exact evaluate_of_reads h hlimit hcode

end Expr

namespace Logo

open Exec Courseware.Expr.Token

variable {env : Environment} {m : Machine} {v : Text}

lemma reads_inQuotes {vars : Variables} (hq : isQuote q = true) (ht : q ∉ t) :
    Reads vars true (inQuotes q t) [.literal (.text t)] :=
  .quoted hq ht .nil

lemma reads_joined {vars : Variables} (hq : isQuote q = true) (ht : q ∉ t) (hs : '"' ∉ s) :
    Reads vars true (joined (inQuotes q t) s)
      [.literal (.text t), .operator (.binary .add), .literal (.text s)] := by
  have hlast : Reads vars true (' ' :: inQuotes '"' s) [.literal (.text s)] :=
    .blank (by decide) (.quoted rfl hs .nil)
  have hplus : Reads vars false (' ' :: '+' :: ' ' :: inQuotes '"' s)
      [.operator (.binary .add), .literal (.text s)] :=
    .blank (by decide) (.binary (o := .add) (by decide) (by simp) hlast)
  have hline : joined (inQuotes q t) s = q :: (t ++ q :: ' ' :: '+' :: ' ' :: inQuotes '"' s) := by
    simp [joined, inQuotes]
  rw [hline]
  exact .quoted hq ht hplus

lemma resolve_eq {u : Text} {w : Value} (hexpand : expand m.vars t = .ok u)
    (hvalue : Expr.evaluate m.vars env.settings.limits u = pure w) :
    resolve t env m = .ok w m := by
  have hexpanded : expanded t env m = .ok u m := by
    unfold expanded
    refine (bind_of_ok (a := m) rfl).trans ?_
    rw [hexpand]
    rfl
  unfold resolve
  rw [bind_of_ok hexpanded, Exec.evaluate, hvalue]
  rfl

/-! ### Passing a text -/

/-- A variable that holds a text is passed as it is. -/
lemma argument_reference {w : Text} (hw : isName w = true) (hv : m.vars.value? w = some (.text v))
    (hquotes : '"' ∉ v ∨ '\'' ∉ v) (hlimit : 1 ≤ env.settings.limits.maxTokens) :
    argument (.ok (':' :: w)) env m = .ok (.text v) m := by
  obtain ⟨q, hq, hqv, hquote⟩ := quote?_eq hquotes
  have hexpand : expand m.vars (':' :: w) = .ok (inQuotes q v) := by
    have h : Writes m.vars (':' :: w) (inQuotes q v) [] :=
      .reference hw (by simp [EndsName]) hv (spliced_text hquote)
    unfold Writes at h
    rw [List.append_nil, expand] at h
    rw [h, Except.map, List.append_nil]
  have hliteral : literal? (':' :: w) = none := by
    have hquoted : quoted? (':' :: w) = none := by
      rw [quoted?, trim, trimStart_cons_of_not_blank (by decide),
        trimEnd_cons_of_not_blank (by decide)]
      rfl
    unfold literal?
    rw [hquoted]
    rfl
  have hresolve : resolve (':' :: w) env m = .ok (.text v) m :=
    resolve_eq hexpand (Expr.evaluate_literal (reads_inQuotes hq hqv) hlimit)
  unfold argument
  refine (bind_of_ok (a := ':' :: w) rfl).trans ?_
  rw [hliteral]
  dsimp only
  rw [fatally, hresolve]

/-- The line prints the two texts. -/
lemma execute_joined (room : Nat) (hq : isQuote q = true) (ht : q ∉ t) (hs : '"' ∉ s)
    (hmt : mentions t = false) (hms : mentions s = false)
    (hlimit : 3 ≤ env.settings.limits.maxTokens) :
    execute room ("PR ".toList ++ joined (inQuotes q t) s) env m =
      .ok .next (m.emit (.text (t ++ s))) := by
  have hexpand : expand m.vars (joined (inQuotes q t) s) = .ok (joined (inQuotes q t) s) :=
    expand_of_not_mentions (mentions_joined (by rw [mentions_inQuotes hq, hmt]) hms)
  have hresolve : resolve (joined (inQuotes q t) s) env m = .ok (.text (t ++ s)) m :=
    resolve_eq hexpand (Expr.evaluate_joined (reads_joined hq ht hs) hlimit)
  have hprinted : printed (.expr (joined (inQuotes q t) s)) env m = .ok (t ++ s) m := by
    rw [printed, literal?_joined hq ht]
    exact bind_of_ok hresolve
  obtain ⟨enter, he⟩ := execute_eq room ("PR ".toList ++ joined (inQuotes q t) s) env m
  have hrun : Simple.run enter (.print (.expr (joined (inQuotes q t) s))) env m =
      .ok .next (m.emit (.text (t ++ s))) := bind_of_ok hprinted
  rw [he, read_joined env.program hq ht hs, Command.run, runAll]
  exact bind_of_ok hrun

section Call

variable {p : Procedure} {x line line' : Text} {input : Except Misuse Text} {u : Value}
  {enter : Text → Exec Directive} {m m₁ m₂ : Machine}

/-- A call of a procedure that has one line runs the line with the argument put in. -/
lemma call_eq_deeper (hparams : p.params = [x]) (hbody : p.body = [line])
    (hinput : argument input env m = .ok u m₁)
    (hdepth : m₁.callDepth < env.settings.maxCallDepth)
    (hline : substitute [(x, u)] line = .ok line') :
    call enter p [input] env m = deeper (runBody enter [line']) env m₁ := by
  have harguments : arguments [input] env m = .ok [u] m₁ := by
    rw [arguments, bind_of_ok hinput]
    rfl
  have hsubstituted : substituteAll (p.params.zip [u]) p.body = .ok [line'] := by
    rw [hparams, hbody]
    simp only [List.zip_cons_cons, List.zip_nil_left, substituteAll, hline]
    rfl
  have hallowed : ¬ env.settings.maxCallDepth < m₁.callDepth + 1 := by omega
  unfold call
  rw [bind_of_ok harguments]
  refine (bind_of_ok (a := env) rfl).trans ((bind_of_ok (a := m₁) rfl).trans ?_)
  rw [if_neg hallowed, hsubstituted]
  exact bind_of_ok (a := [line']) rfl

lemma charge_eq (hused : m.used < env.settings.maxCommands) :
    charge env m = .ok () { m with used := m.used + 1 } :=
  if_neg (Nat.not_le.2 hused)

/-- A line that goes on to the next one makes a whole body. -/
lemma runBody_single (hused : m.used < env.settings.maxCommands)
    (hstop : sameWord (trim line) "STOP".toList = false)
    (hrun : enter line env { m with used := m.used + 1 } = .ok .next m₂) :
    runBody enter [line] env m = .ok .next m₂ := by
  rw [runBody, bind_of_ok (charge_eq hused), hstop]
  exact bind_of_ok hrun

end Call

/-- **A procedure that prints its argument prints it as it is.** A text that does not hold both
kinds of quotes is passed unchanged by a variable, and a procedure that joins it to another text
prints the two, whatever else is in them, if in neither of them a name follows a colon. -/
theorem call_prints_argument {env : Environment} {m m₁ : Machine} {line verb x v s : Text}
    {p : Procedure} {input : Except Misuse Text} (room : Nat)
    (hread : Command.read env.program line = .logo [.simple (.call verb p [input])])
    (hx : isName x = true) (hparams : p.params = [upper x])
    (hbody : p.body = ["PR :".toList ++ x ++ " + \"".toList ++ s ++ "\"".toList])
    (hinput : argument input env m = .ok (.text v) m₁)
    (hquotes : '"' ∉ v ∨ '\'' ∉ v) (hs : '"' ∉ s)
    (hv : mentions v = false) (hs' : mentions s = false)
    (hdepth : m₁.callDepth < env.settings.maxCallDepth)
    (hused : m₁.used < env.settings.maxCommands) (hlimit : 3 ≤ env.settings.limits.maxTokens) :
    execute (room + 1) line env m =
        .ok .next ({ m₁ with used := m₁.used + 1 }.emit (.text (v ++ s))) ∧
      ∀ w m', isName w = true → m'.vars.value? w = some (.text v) →
        argument (.ok (':' :: w)) env m' = .ok (.text v) m' := by
  refine ⟨?_, fun w m' hw hvalue => argument_reference hw hvalue hquotes (by omega)⟩
  obtain ⟨q, hq, hqv, hquote⟩ := quote?_eq hquotes
  have hline : p.body = ["PR ".toList ++ joined (':' :: x) s] := by
    rw [hbody]
    simp [joined, inQuotes]
  -- in the body the argument stands in the quotes that it does not hold itself
  have hbodyRun := runBody_single (m := { m₁ with callDepth := m₁.callDepth + 1 }) hused
    (not_stop_joined (inQuotes q v) s) (execute_joined room hq hqv hs hv hs' hlimit)
  have hcall : call (execute room) p [input] env m =
      .ok .next ({ m₁ with used := m₁.used + 1 }.emit (.text (v ++ s))) := by
    rw [call_eq_deeper hparams hline hinput hdepth (substitute_joined hx hquote hs'), deeper,
      hbodyRun]
    rfl
  change (Command.read env.program line).run (execute room) env m = _
  rw [hread, Command.run, runAll]
  exact bind_of_ok hcall

/-! ### Calls of a procedure `P` -/

lemma read_reference {p : Program} {f : Procedure} {x : Text}
    (hf : p.procedure? "P".toList = some f) (hparams : f.params = [x]) :
    Command.read p "P :w".toList = .logo [.simple (.call "P".toList f [.ok ":w".toList])] := by
  have hclass : Family.classify "P :w".toList = .unknown := by decide
  have hwords : splitWords "P :w".toList = .ok [.atom "P".toList, .atom ":w".toList] :=
    splitWords_eq_words (by simp [isMark, isQuote])
  have hphrase : readPhrase p "P".toList [.atom ":w".toList] =
      (.simple (.call "P".toList f [.ok ":w".toList]), []) := by
    have hverb : Verb.ofName? (upper "P".toList) = none := rfl
    unfold readPhrase
    rw [hverb]
    dsimp only
    rw [readCall, hf]
    dsimp only
    rw [hparams]
    rfl
  have htrim : trim "P :w".toList = "P :w".toList := rfl
  have hfirst : firstWord "P :w".toList = "P".toList := rfl
  rw [Command.read, htrim, hclass]
  dsimp only
  rw [hfirst, hf, Option.isSome_some, if_pos rfl, Command.readBlock, hwords]
  dsimp only
  rw [sentences_simple hphrase, sentences]

/-- A text with brackets, a semicolon, quotes, operators and colons. -/
theorem call_prints_argument_marks :
    ∃ (p : Program) (f : Procedure) (m : Machine) (v : Text),
      Program.load "P :w\nTO P :x\nPR :x + \"!\"\nEND".toList = .ok p ∧
      Command.read p "P :w".toList = .logo [.simple (.call "P".toList f [.ok ":w".toList])] ∧
      f.params = ["X".toList] ∧ f.body = ["PR :x + \"!\"".toList] ∧
      v = "a; [b] + \"c\": -:2".toList ∧ m.vars.value? "w".toList = some (.text v) ∧
      execute 1 "P :w".toList ⟨p, {}, 0⟩ m =
        .ok .next ({ m with used := m.used + 1 }.emit (.text (v ++ "!".toList))) := by
  obtain ⟨v, hv⟩ : ∃ v, v = "a; [b] + \"c\": -:2".toList := ⟨_, rfl⟩
  obtain ⟨m, hm, hdepth, hused⟩ : ∃ m : Machine, m.vars.value? "w".toList = some (.text v) ∧
      m.callDepth = 0 ∧ m.used = 0 :=
    ⟨{ random := default, vars := Variables.set {} "W".toList (.text v) }, rfl, rfl, rfl⟩
  obtain ⟨p, f, hload, hparams, hbody, hf⟩ : ∃ (p : Program) (f : Procedure),
      Program.load "P :w\nTO P :x\nPR :x + \"!\"\nEND".toList = .ok p ∧
      f.params = ["X".toList] ∧ f.body = ["PR :x + \"!\"".toList] ∧
      p.procedure? "P".toList = some f := by
    refine ⟨_, ⟨"P".toList, ["X".toList], ["PR :x + \"!\"".toList], 1, 3⟩, rfl, rfl, rfl, ?_⟩
    decide +kernel
  have hquotes : '"' ∉ v ∨ '\'' ∉ v := .inr (by rw [hv]; decide)
  have hplain : mentions v = false := by
    rw [hv]
    decide
  have hread := read_reference hf hparams
  have hone : 1 ≤ (Environment.settings ⟨p, {}, 0⟩).limits.maxTokens := Nat.le_of_ble_eq_true rfl
  have hthree : 3 ≤ (Environment.settings ⟨p, {}, 0⟩).limits.maxTokens := Nat.le_of_ble_eq_true rfl
  have hroom : m.callDepth < (Environment.settings ⟨p, {}, 0⟩).maxCallDepth := by
    rw [hdepth]
    exact Nat.le_of_ble_eq_true rfl
  have hleft : m.used < (Environment.settings ⟨p, {}, 0⟩).maxCommands := by
    rw [hused]
    exact Nat.le_of_ble_eq_true rfl
  refine ⟨p, f, m, v, hload, hread, hparams, hbody, hv, hm, ?_⟩
  exact (call_prints_argument (x := "x".toList) 0 hread rfl hparams hbody
    (argument_reference rfl hm hquotes hone) hquotes (by decide) hplain rfl hroom hleft hthree).1

/-- Why a command failed. -/
def failure? {α : Type} : EStateM.Result ExecError Machine α → Option String
  | .error e _ => some e.message
  | .ok .. => none

section Failure

variable {α β : Type} {e line line' x : Text} {p : Procedure} {input : Except Misuse Text}
  {u : Value} {verb : Text} {m₁ : Machine}

lemma failure?_bind {a : Exec α} {f : α → Exec β} (hf : ∀ y m', failure? (f y env m') = none) :
    failure? ((a >>= f) env m) = failure? (a env m) := by
  cases h : a env m with
  | ok y m' =>
    rw [bind_of_ok h, hf]
    rfl
  | error e m' =>
    rw [bind_of_error h]
    rfl

lemma failure?_runAll (enter : Text → Exec Directive) (c : Simple) :
    failure? (runAll enter [.simple c] false env m) = failure? (c.run enter env m) := by
  rw [runAll]
  refine failure?_bind fun d m' => ?_
  cases d <;> rfl

/-- A line that prints an expression fails as the expression does. -/
lemma failure?_execute_print (room : Nat)
    (hread : Command.read env.program line = .logo [.simple (.print (.expr e))])
    (he : literal? e = none) :
    failure? (execute room line env m) = failure? (resolve e env m) := by
  obtain ⟨enter, hexecute⟩ := execute_eq room line env m
  have hprinted : failure? (printed (.expr e) env m) = failure? (resolve e env m) := by
    rw [printed, he]
    exact failure?_bind fun _ _ => rfl
  rw [hexecute, hread, Command.run, failure?_runAll, ← hprinted]
  exact failure?_bind fun _ _ => rfl

/-- A line that calls a procedure with a single line fails as that line does. -/
lemma failure?_execute_call (room : Nat)
    (hread : Command.read env.program line = .logo [.simple (.call verb p [input])])
    (hparams : p.params = [x]) (hbody : p.body = [e]) (hinput : argument input env m = .ok u m₁)
    (hdepth : m₁.callDepth < env.settings.maxCallDepth)
    (hused : m₁.used < env.settings.maxCommands) (hline : substitute [(x, u)] e = .ok line')
    (hstop : sameWord (trim line') "STOP".toList = false) :
    failure? (execute (room + 1) line env m) = failure? (execute room line' env
      { m₁ with callDepth := m₁.callDepth + 1, used := m₁.used + 1 }) := by
  have hcharge := charge_eq (m := { m₁ with callDepth := m₁.callDepth + 1 }) hused
  have hrun : failure? (runBody (execute room) [line'] env
      { m₁ with callDepth := m₁.callDepth + 1 }) = failure? (execute room line' env
        { m₁ with callDepth := m₁.callDepth + 1, used := m₁.used + 1 }) := by
    rw [runBody, bind_of_ok hcharge, hstop]
    refine failure?_bind fun d m' => ?_
    cases d <;> rfl
  change failure? ((Command.read env.program line).run (execute room) env m) = _
  rw [hread, Command.run, failure?_runAll, Simple.run,
    call_eq_deeper hparams hbody hinput hdepth hline, ← hrun, deeper]
  split
  · next h =>
    rw [h]
    rfl
  · next h =>
    rw [h]
    rfl

lemma failure?_call_reference {g : Program} {v s : Text} (hg : g.procedure? "P".toList = some p)
    (hparams : p.params = [x]) (hbody : p.body = [e])
    (hvalue : m.vars.value? "w".toList = some (.text v)) (hdepth : m.callDepth = 0)
    (hused : m.used = 0) (hv : '"' ∉ v) (hs : '"' ∉ s)
    (hline : (substitute [(x, .text v)] e).toOption =
      some ("PR ".toList ++ joined (inQuotes '"' v) s)) :
    failure? (execute 1 "P :w".toList ⟨g, {}, 0⟩ m) =
      failure? (resolve (joined (inQuotes '"' v) s) ⟨g, {}, 0⟩
        { m with callDepth := m.callDepth + 1, used := m.used + 1 }) := by
  have hinput : argument (.ok ":w".toList) ⟨g, {}, 0⟩ m = .ok (.text v) m :=
    argument_reference rfl hvalue (.inl hv) (Nat.le_of_ble_eq_true rfl)
  have hline' : substitute [(x, .text v)] e =
      .ok ("PR ".toList ++ joined (inQuotes '"' v) s) := by
    cases h : substitute [(x, .text v)] e with
    | ok t =>
      rw [h] at hline
      exact congrArg Except.ok (Option.some.inj hline)
    | error e' =>
      rw [h] at hline
      cases hline
  rw [failure?_execute_call 0 (read_reference hg hparams) hparams hbody hinput _ _ hline'
    (not_stop_joined _ s)]
  · exact failure?_execute_print 0 (read_joined g rfl hv hs) (literal?_joined rfl hv s)
  · rw [hdepth]
    exact Nat.le_of_ble_eq_true rfl
  · rw [hused]
    exact Nat.le_of_ble_eq_true rfl

end Failure

/-- References are replaced inside of quotes: in the argument, and in the text that it is joined
to. -/
theorem reference_inside_quotes :
    (∃ p, Program.load "P :w\nTO P :x\nPR :x + \"!\"\nEND".toList = .ok p ∧
      failure? (execute 1 "P :w".toList ⟨p, {}, 0⟩
        { random := default, vars := Variables.set {} "W".toList (.text "a:foo".toList) }) =
          some "unknown symbol `FOO`") ∧
    ∃ p, Program.load "P :w\nTO P :x\nPR :x + \":foo\"\nEND".toList = .ok p ∧
      failure? (execute 1 "P :w".toList ⟨p, {}, 0⟩
        { random := default, vars := Variables.set {} "W".toList (.text "a".toList) }) =
          some "unknown symbol `FOO`" := by
  refine ⟨⟨_, rfl, ?_⟩, ⟨_, rfl, ?_⟩⟩
  · rw [failure?_call_reference (s := "!".toList)
      (p := ⟨"P".toList, ["X".toList], ["PR :x + \"!\"".toList], 1, 3⟩)
      (by decide +kernel) rfl rfl rfl rfl rfl (by decide) (by decide) (by decide +kernel)]
    decide +kernel
  · rw [failure?_call_reference (s := ":foo".toList)
      (p := ⟨"P".toList, ["X".toList], ["PR :x + \":foo\"".toList], 1, 3⟩)
      (by decide +kernel) rfl rfl rfl rfl rfl (by decide) (by decide) (by decide +kernel)]
    decide +kernel

end Logo

end Courseware
