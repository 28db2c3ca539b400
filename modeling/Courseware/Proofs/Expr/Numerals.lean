import Courseware.Proofs.Expr.Scanning
import Courseware.Proofs.Expr.Spacing
import Courseware.Proofs.Expr.Splicing

/-!
Whole numbers that are printed are read back.

There are two readers. One takes the sign together with the digits, so it has every number of 64
bits. In an expression the minus sign is an operator on the digits behind it, and these must fit 64
bits without it. So the least number alone does not come back from an expression: its digits are
read as a float.
-/

namespace Courseware.Expr

open Text Number Token

variable {vars : Variables} {limits : Limits} {t rest : Text} {toks : List Token} {n : Int64}

/-! ### Expressions of one or two tokens -/

lemma evaluate_of_reads {code : List Instruction} (h : Reads vars true t toks)
    (hlimit : toks.length ≤ limits.maxTokens) (hcode : postfixForm limits toks = .ok code) :
    evaluate vars limits t = runPostfix vars code [] := by
  have htoks : tokenize vars limits t = .ok toks := by
    rw [tokenize_of_reads h, if_pos hlimit]
  have hbind : ∀ {α β : Type} (a : α) (f : α → Evaluation β), (lift (.ok a) >>= f) = f a :=
    fun _ _ => rfl
  rw [evaluate, htoks, hbind, hcode, hbind]

/-- The value of an expression that is a single literal. -/
lemma evaluate_literal {u : Value} (h : Reads vars true t [.literal u])
    (hlimit : 1 ≤ limits.maxTokens) : evaluate vars limits t = pure u := by
  have hcode : postfixForm limits [.literal u] = .ok [.push u] := by
    refine (postfixForm_cons limits _ _).trans ((Counted.convert_of_ok rfl).trans ?_)
    rw [Counted.convert]
    rfl
  exact evaluate_of_reads h hlimit hcode

/-- The value of an expression that is a literal behind a minus sign. -/
lemma evaluate_negated {u v : Value} (h : Reads vars true t [.operator (.unary .neg), .literal u])
    (hlimit : 2 ≤ limits.maxTokens) (hu : negate u = .ok v) : evaluate vars limits t = pure v := by
  have hcode : postfixForm limits [.operator (.unary .neg), .literal u] =
      .ok [.push u, .apply (.unary .neg)] := by
    refine (postfixForm_cons limits _ _).trans ((Counted.convert_of_ok rfl).trans ?_)
    rw [Counted.convert_of_ok rfl, Counted.convert]
    rfl
  rw [evaluate_of_reads h hlimit hcode, runPostfix_negated hu]
  rfl

/-! ### Numbers with a sign -/

/-- The tokens of a whole number. -/
def numberTokens (n : Int64) : List Token :=
  if n.toInt < 0 then [.operator (.unary .neg), .literal (.integer (-n))]
  else [.literal (.integer n)]

lemma reads_signedDecimal (hn : n ≠ Int64.minValue) (hrest : EndsNumeral rest)
    (h : Reads vars false rest toks) :
    Reads vars true (signedDecimal n.toInt ++ rest) (numberTokens n ++ toks) := by
  unfold signedDecimal numberTokens
  by_cases hneg : n.toInt < 0
  · have habs : (n.toInt.natAbs : Int) = -n.toInt := by omega
    rw [if_pos hneg, if_pos hneg]
    exact .sign (.decimal (by rw [habs, word?_neg hn]) hrest h)
  · have habs : (n.toInt.natAbs : Int) = n.toInt := by omega
    rw [if_neg hneg, if_neg hneg]
    exact .decimal (by rw [habs, word?_toInt]) hrest h

lemma negate_neg (hn : n ≠ Int64.minValue) : negate (.integer (-n)) = .ok (.integer n) := by
  have hneg : (-n).toInt = -n.toInt := toInt_of_word? (word?_neg hn)
  have hback : neg? (-n) = some n := by
    rw [neg?, hneg, Int.neg_neg, word?_toInt]
  simp only [negate, hback, Option.map_some, Option.getD_some]

lemma evaluate_display (hn : n ≠ Int64.minValue) (hlimit : 2 ≤ limits.maxTokens) :
    evaluate vars limits (Value.integer n).display = pure (.integer n) := by
  have hreads : Reads vars true (Value.integer n).display (numberTokens n) := by
    have happend : Reads vars true (signedDecimal n.toInt ++ []) (numberTokens n ++ []) :=
      reads_signedDecimal hn endsNumeral_nil .nil
    rwa [List.append_nil, List.append_nil] at happend
  unfold numberTokens at hreads
  split at hreads
  · exact evaluate_negated hreads hlimit (negate_neg hn)
  · exact evaluate_literal hreads (by omega)

/-- The digits of the least number do not fit 64 bits, so the minus sign stands before a float. -/
lemma evaluate_display_least (vars : Variables) (hlimit : 2 ≤ limits.maxTokens) :
    ∃ x, evaluate vars limits (Value.integer Int64.minValue).display = pure (.float x) := by
  obtain ⟨hdigits, hvalue⟩ := decimal_digits Int64.minValue.toInt.natAbs
  have hword : word? Int64.minValue.toInt.natAbs = none := by decide
  have hfloat := numeralValue_of_no_word (hvalue.symm ▸ hword)
  have hreads : Reads vars true ('-' :: (decimal Int64.minValue.toInt.natAbs ++ [])) _ :=
    .sign (.numeral (decimal_ne_nil _) hdigits endsNumeral_nil .nil)
  rw [hfloat, List.append_nil] at hreads
  exact ⟨_, evaluate_negated hreads hlimit rfl⟩

lemma pure_injective {v w : Value} (h : (pure v : Evaluation Value) = pure w) : v = w := by
  have hresult := congrFun h default
  injection hresult

/-! ### All readers -/

lemma value_of_text (v : Value) :
    callFunction "STR$".toList [v] >>= (fun u => callFunction "VAL".toList [u]) =
      pure ((Value.readNumber? v.display).getD (.integer 0)) := rfl

/-- **Whole numbers survive printing.** Every reader gives the number back, and an expression all of
them but the least. -/
theorem printed_integer_reads_back (n : Int64) {b b' : Text} (hb : b.all isBlank = true)
    (hb' : b'.all isBlank = true) :
    Value.readNumber? (b ++ ((Value.integer n).display ++ b')) = some (.integer n) ∧
      Value.ofInput (b ++ ((Value.integer n).display ++ b')) = .integer n ∧
      callFunction "STR$".toList [.integer n] >>= (fun u => callFunction "VAL".toList [u]) =
        pure (.integer n) ∧
      ∀ (vars : Variables) (limits : Limits), 2 ≤ limits.maxTokens →
        (evaluate vars limits (b ++ ((Value.integer n).display ++ b')) = pure (.integer n) ↔
          n ≠ Int64.minValue) := by
  have htrim := Value.trim_display_integer hb hb' n
  refine ⟨Value.readNumber?_of_trim htrim, Value.ofInput_of_trim htrim, ?_, ?_⟩
  · have hsolid : trim (Value.integer n).display = (Value.integer n).display :=
      (solid_signedDecimal n.toInt).trim_eq
    rw [value_of_text, Value.readNumber?_of_trim hsolid, Option.getD_some]
  · intro vars limits hlimit
    rw [← evaluate_trim, htrim]
    refine ⟨?_, fun hn => evaluate_display hn hlimit⟩
    -- the least number is read as the opposite of a float
    rintro heval rfl
    obtain ⟨x, hx⟩ := evaluate_display_least vars hlimit
    cases pure_injective (hx.symm.trans heval)

/-- The number next to the least one, between white space, with just enough tokens. -/
theorem printed_integer_reads_back_lowest :
    Value.readNumber? " -9223372036854775807\t".toList = some (.integer (-9223372036854775807)) ∧
      Value.ofInput " -9223372036854775807\t".toList = .integer (-9223372036854775807) ∧
      evaluate {} ⟨2, 0⟩ " -9223372036854775807\t".toList =
        pure (.integer (-9223372036854775807)) := by
  have hdisplay : (Value.integer (-9223372036854775807)).display =
      "-9223372036854775807".toList := by
    with_unfolding_all rfl
  have hb : " ".toList.all isBlank = true := rfl
  have hb' : "\t".toList.all isBlank = true := rfl
  obtain ⟨hread, hinput, -, heval⟩ := printed_integer_reads_back (-9223372036854775807) hb hb'
  rw [hdisplay] at hread hinput heval
  exact ⟨hread, hinput, (heval {} ⟨2, 0⟩ (by decide)).2 (by decide)⟩

end Courseware.Expr
