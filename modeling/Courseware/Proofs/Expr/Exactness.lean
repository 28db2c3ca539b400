import Courseware.Proofs.Expr.Scanning
import Courseware.Proofs.Expr.TreeEvaluation
import Mathlib.Algebra.Order.Ring.Int
import Mathlib.Tactic.NormNum

/-!
Whole results are exact.

A tree over whole numbers has a value among the unbounded whole numbers, if no part of it divides by
zero or has a negative exponent. Evaluation gives a whole number just when every part of the tree
has such a value and it fits; then the result is that value. Once a part does not fit, it is a float
or an error, and no operator makes a whole number out of either.
-/

namespace Courseware

namespace Number

variable {a b n : Int64} {k : Nat} {z : Int}

lemma word?_eq_some_iff : word? z = some n ↔ z = n.toInt := by
  constructor
  · intro h
    exact (toInt_of_word? h).symm
  · rintro rfl
    exact word?_toInt n

/-- A power of another base than -1, 0 and 1 does not fit if its exponent is large. -/
lemma lt_natAbs_pow (hz : 2 ≤ z.natAbs) (hk : 64 ≤ k) : 2 ^ 63 < (z ^ k).natAbs := by
  calc 2 ^ 63 < 2 ^ 64 := by norm_num
    _ ≤ 2 ^ k := Nat.pow_le_pow_right (by norm_num) hk
    _ ≤ z.natAbs ^ k := Nat.pow_le_pow_left hz k
    _ = (z ^ k).natAbs := (Int.natAbs_pow z k).symm

lemma pow?_eq_some_iff : pow? a k = some n ↔ a.toInt ^ k = n.toInt := by
  have hlow := n.minValue_le_toInt
  have hhigh := n.toInt_le
  have hmin : Int64.minValue.toInt = -9223372036854775808 := by decide
  have hmax : Int64.maxValue.toInt = 9223372036854775807 := by decide
  unfold pow?
  -- powers of 0, 1 and -1 fit however large the exponent is, and no others
  by_cases hk : k < 64
  · rw [if_pos hk]
    exact word?_eq_some_iff
  rw [if_neg hk]
  have hpos : k ≠ 0 := by omega
  by_cases h0 : a.toInt = 0
  · rw [if_pos h0, h0, zero_pow hpos, Option.some_inj, ← Int64.toInt_inj]
    rfl
  rw [if_neg h0]
  by_cases h1 : a.toInt = 1
  · rw [if_pos h1, h1, one_pow, Option.some_inj, ← Int64.toInt_inj]
    rfl
  rw [if_neg h1]
  by_cases hm : a.toInt = -1
  · rw [if_pos hm, hm, Option.some_inj, ← Int64.toInt_inj, neg_one_pow_eq_pow_mod_two]
    rcases Nat.mod_two_eq_zero_or_one k with he | ho
    · rw [if_pos he, he]
      rfl
    · rw [if_neg (by omega), ho]
      rfl
  · have hlarge := lt_natAbs_pow (z := a.toInt) (by omega) (by omega : 64 ≤ k)
    rw [if_neg hm]
    refine iff_of_false (by simp) fun h => ?_
    rw [h] at hlarge
    omega

/-- The remainder is smaller than the divisor, so it always fits. -/
lemma toInt_remainder (hb : b ≠ 0) : (remainder a b).toInt = a.toInt.tmod b.toInt := by
  have hne : b.toInt ≠ 0 := by
    intro h
    exact hb (Int64.toInt_inj.1 h)
  have hlt := Int.natAbs_tmod a.toInt b.toInt
  have hmod := Nat.mod_lt a.toInt.natAbs (Int.natAbs_pos.2 hne)
  have hlow := b.minValue_le_toInt
  have hhigh := b.toInt_le
  have hmin : Int64.minValue.toInt = -9223372036854775808 := by decide
  have hmax : Int64.maxValue.toInt = 9223372036854775807 := by decide
  exact Int64.toInt_ofInt_of_le (by omega) (by omega)

end Number

namespace Expr

open Number Token

variable {vars : Variables} {a b n : Int64} {v w : Value}

/-! ### Operators -/

/-- The operation on unbounded whole numbers, where its result is one. -/
def UnaryOp.unbounded? : UnaryOp → Int → Option Int
  | .neg, x => some (-x)
  | .pos, x => some x
  | .not, _ => none

/-- The remainder has the sign of the left operand. -/
def BinaryOp.unbounded? : BinaryOp → Int → Int → Option Int
  | .add, x, y => some (x + y)
  | .sub, x, y => some (x - y)
  | .mul, x, y => some (x * y)
  | .mod, x, y => if y = 0 then none else some (x.tmod y)
  | .pow, x, y => if 0 ≤ y then some (x ^ y.toNat) else none
  | _, _, _ => none

lemma getD_eq_integer_iff {x : Option Int64} {y : Float} :
    (x.map Value.integer).getD (.float y) = .integer n ↔ x = some n := by
  cases x <;> simp

lemma unary_eq_integer_iff {o : UnaryOp} (ho : o ≠ .not) :
    o.apply v = .ok (.integer n) ↔ ∃ a, v = .integer a ∧ o.unbounded? a.toInt = some n.toInt := by
  cases o with
  | not => exact absurd rfl ho
  | neg =>
    cases v with
    | integer a =>
      simp only [UnaryOp.apply, negate, Except.ok.injEq, getD_eq_integer_iff, neg?,
        word?_eq_some_iff, Value.integer.injEq, exists_eq_left', UnaryOp.unbounded?,
        Option.some.injEq]
    | float x => simp [UnaryOp.apply, negate]
    | text t => simp [UnaryOp.apply, negate]
  | pos =>
    cases v with
    | integer a =>
      simp [UnaryOp.apply, numeric, UnaryOp.unbounded?, Int64.toInt_inj]
    | float x => simp [UnaryOp.apply, numeric]
    | text t => simp [UnaryOp.apply, numeric]

/-- With a float on one side, the result is a float if there is one. -/
lemma arithmetic_cases {o : BinaryOp} {f : Int64 → Int64 → Option Int64}
    {g : Float → Float → Float} {u : Value} (h : arithmetic o f g v w = .ok u) :
    (∃ a b, v = .integer a ∧ w = .integer b) ∨ ∃ x, u = .float x := by
  cases v with
  | integer a =>
    cases w with
    | integer b => exact .inl ⟨a, b, rfl, rfl⟩
    | float y => cases h; exact .inr ⟨_, rfl⟩
    | text t => cases h
  | float x =>
    cases w with
    | integer b => cases h; exact .inr ⟨_, rfl⟩
    | float y => cases h; exact .inr ⟨_, rfl⟩
    | text t => cases h
  | text t => cases h

lemma arithmetic_integers (o : BinaryOp) (f : Int64 → Int64 → Option Int64)
    (g : Float → Float → Float) (a b : Int64) :
    arithmetic o f g (.integer a) (.integer b) =
      .ok (((f a b).map Value.integer).getD (.float (g (ofWord a) (ofWord b)))) := rfl

lemma arithmetic_eq_integer_iff {o : BinaryOp} {f : Int64 → Int64 → Option Int64}
    {g : Float → Float → Float} :
    arithmetic o f g v w = .ok (.integer n) ↔
      ∃ a b, v = .integer a ∧ w = .integer b ∧ f a b = some n := by
  constructor
  · intro h
    rcases arithmetic_cases h with ⟨a, b, rfl, rfl⟩ | ⟨x, hx⟩
    · rw [arithmetic_integers, Except.ok.injEq, getD_eq_integer_iff] at h
      exact ⟨a, b, rfl, rfl, h⟩
    · cases hx
  · rintro ⟨a, b, rfl, rfl, h⟩
    rw [arithmetic_integers, Except.ok.injEq, getD_eq_integer_iff]
    exact h

lemma modulo_cases {u : Value} (h : modulo v w = .ok u) :
    (∃ a b, v = .integer a ∧ w = .integer b) ∨ ∃ x, u = .float x := by
  -- one float is enough to make the remainder a float
  have hfloat : ∀ x y, (if (y == 0) = true then throw EvalError.divideByZero
      else pure (.float (remainderFloat x y)) : Except EvalError Value) = .ok u →
        ∃ x, u = .float x := by
    intro x y hxy
    split at hxy
    · cases hxy
    · cases hxy
      exact ⟨_, rfl⟩
  cases v with
  | integer a =>
    cases w with
    | integer b => exact .inl ⟨a, b, rfl, rfl⟩
    | float y => exact .inr (hfloat (ofWord a) y h)
    | text t => cases h
  | float x =>
    cases w with
    | integer b => exact .inr (hfloat x (ofWord b) h)
    | float y => exact .inr (hfloat x y h)
    | text t => cases h
  | text t => cases h

lemma modulo_integers (a b : Int64) :
    modulo (.integer a) (.integer b) =
      if b = 0 then .error .divideByZero else .ok (.integer (remainder a b)) := by
  by_cases hb : b = 0
  · subst hb
    rfl
  · simp [modulo, numeric, hb, bind, Except.bind, pure, Except.pure]

lemma modulo_eq_integer_iff :
    modulo v w = .ok (.integer n) ↔ ∃ a b, v = .integer a ∧ w = .integer b ∧
      BinaryOp.unbounded? .mod a.toInt b.toInt = some n.toInt := by
  have hwords : ∀ a b : Int64, modulo (.integer a) (.integer b) = .ok (.integer n) ↔
      BinaryOp.unbounded? .mod a.toInt b.toInt = some n.toInt := by
    intro a b
    have hzero : b.toInt = 0 ↔ b = 0 := by
      rw [← Int64.toInt_inj]
      rfl
    rw [modulo_integers]
    by_cases hb : b = 0
    · simp [hb, BinaryOp.unbounded?]
    · simp [hb, hzero, BinaryOp.unbounded?, ← toInt_remainder hb, Int64.toInt_inj]
  constructor
  · intro h
    rcases modulo_cases h with ⟨a, b, rfl, rfl⟩ | ⟨x, hx⟩
    · exact ⟨a, b, rfl, rfl, (hwords a b).1 h⟩
    · cases hx
  · rintro ⟨a, b, rfl, rfl, h⟩
    exact (hwords a b).2 h

lemma wholePower?_eq_some_iff :
    wholePower? a b = some n ↔
      BinaryOp.unbounded? .pow a.toInt b.toInt = some n.toInt ∧ b.toInt < UInt32.size := by
  simp only [wholePower?, BinaryOp.unbounded?]
  by_cases h0 : 0 ≤ b.toInt
  · by_cases h1 : b.toInt < UInt32.size
    · rw [if_pos ⟨h0, h1⟩, if_pos h0, pow?_eq_some_iff, Option.some_inj]
      exact (and_iff_left h1).symm
    · rw [if_neg fun h => h1 h.2]
      exact iff_of_false (by simp) fun h => h1 h.2
  · rw [if_neg fun h => h0 h.1, if_neg h0]
    exact iff_of_false (by simp) (by simp)

/-- **An operator gives a whole number just when it is exact**, from whole operands. The exponent of
a power must fit 32 bits. -/
lemma binary_eq_integer_iff {o : BinaryOp} (ho : o ∈ arithmeticOps) :
    o.apply v w = .ok (.integer n) ↔ ∃ a b, v = .integer a ∧ w = .integer b ∧
      o.unbounded? a.toInt b.toInt = some n.toInt ∧ (o = .pow → b.toInt < UInt32.size) := by
  simp only [arithmeticOps, List.mem_cons, List.not_mem_nil, or_false] at ho
  rcases ho with rfl | rfl | rfl | rfl | rfl
  · have hadd : add v w = .ok (.integer n) ↔
        arithmetic .add add? (· + ·) v w = .ok (.integer n) := by
      cases v <;> cases w <;> simp [add, arithmetic, numeric, bind, Except.bind]
    simp only [BinaryOp.apply, hadd, arithmetic_eq_integer_iff, add?, word?_eq_some_iff,
      BinaryOp.unbounded?, Option.some_inj, reduceCtorEq, false_implies, and_true]
  · simp only [BinaryOp.apply, arithmetic_eq_integer_iff, sub?, word?_eq_some_iff,
      BinaryOp.unbounded?, Option.some_inj, reduceCtorEq, false_implies, and_true]
  · simp only [BinaryOp.apply, arithmetic_eq_integer_iff, mul?, word?_eq_some_iff,
      BinaryOp.unbounded?, Option.some_inj, reduceCtorEq, false_implies, and_true]
  · simp only [BinaryOp.apply, modulo_eq_integer_iff, reduceCtorEq, false_implies, and_true]
  · simp only [BinaryOp.apply, power, arithmetic_eq_integer_iff, wholePower?_eq_some_iff,
      true_implies]

/-- A number is not made into a text. -/
lemma isNumeric_of_unary {o : UnaryOp} {u : Value} (ho : o ≠ .not) (h : o.apply v = .ok u) :
    u.isNumeric = true := by
  cases u with
  | integer n => rfl
  | float x => rfl
  | text t =>
    cases o with
    | not => exact absurd rfl ho
    | neg =>
      cases v with
      | integer a =>
        simp only [UnaryOp.apply, negate, Except.ok.injEq] at h
        cases hneg : neg? a <;> rw [hneg] at h <;> cases h
      | float x => cases h
      | text t => cases h
    | pos => cases v <;> cases h

lemma isNumeric_of_arithmetic {o : BinaryOp} {f : Int64 → Int64 → Option Int64}
    {g : Float → Float → Float} {u : Value} (h : arithmetic o f g v w = .ok u) :
    u.isNumeric = true := by
  rcases arithmetic_cases h with ⟨a, b, rfl, rfl⟩ | ⟨x, rfl⟩
  · rw [arithmetic_integers, Except.ok.injEq] at h
    subst h
    cases f a b <;> rfl
  · rfl

lemma isNumeric_of_binary {o : BinaryOp} {u : Value} (ho : o ∈ arithmeticOps)
    (hv : v.isNumeric = true) (h : o.apply v w = .ok u) : u.isNumeric = true := by
  simp only [arithmeticOps, List.mem_cons, List.not_mem_nil, or_false] at ho
  rcases ho with rfl | rfl | rfl | rfl | rfl
  · have hadd : add v w = arithmetic .add add? (· + ·) v w := by
      cases v with
      | text t => cases hv
      | _ => cases w <;> rfl
    exact isNumeric_of_arithmetic (hadd.symm.trans h)
  · exact isNumeric_of_arithmetic h
  · exact isNumeric_of_arithmetic h
  · rcases modulo_cases h with ⟨a, b, rfl, rfl⟩ | ⟨x, rfl⟩
    · rw [BinaryOp.apply, modulo_integers] at h
      split at h <;> cases h
      rfl
    · rfl
  · exact isNumeric_of_arithmetic h

/-! ### Trees -/

namespace Tree

/-- Trees over whole numbers: literals and variables, with signs and arithmetic. -/
inductive Whole (vars : Variables) : Tree → Prop where
  | literal (n : Int64) : Whole vars (.literal (.integer n))
  | name {x : Text} {n : Int64} (h : vars.value? x = some (.integer n)) : Whole vars (.name x)
  | group {t : Tree} (h : Whole vars t) : Whole vars (.group t)
  | unary {o : UnaryOp} {t : Tree} (ho : o ≠ .not) (h : Whole vars t) : Whole vars (.unary o t)
  | binary {o : BinaryOp} {l r : Tree} (ho : o ∈ arithmeticOps) (hl : Whole vars l)
      (hr : Whole vars r) : Whole vars (.binary o l r)

/-- The value of a tree among the unbounded whole numbers. -/
def unbounded? (vars : Variables) : Tree → Option Int
  | literal v =>
    match v with
    | .integer n => some n.toInt
    | _ => none
  | name x =>
    match vars.value? x with
    | some (.integer n) => some n.toInt
    | _ => none
  | group t => t.unbounded? vars
  | unary o t => (t.unbounded? vars).bind o.unbounded?
  | binary o l r =>
    (l.unbounded? vars).bind fun x => (r.unbounded? vars).bind fun y => o.unbounded? x y
  | call _ _ => none

/-- The first tree stands in the second, or is it. -/
inductive Part : Tree → Tree → Prop where
  | self (t : Tree) : Part t t
  | group {s t : Tree} (h : Part s t) : Part s (.group t)
  | unary {s t : Tree} {o : UnaryOp} (h : Part s t) : Part s (.unary o t)
  | left {s l r : Tree} {o : BinaryOp} (h : Part s l) : Part s (.binary o l r)
  | right {s l r : Tree} {o : BinaryOp} (h : Part s r) : Part s (.binary o l r)

/-- The tree has an exact value of 64 bits, and if it is a power, its exponent one of 32. -/
structure Fits (vars : Variables) (t : Tree) : Prop where
  value : ∃ n : Int64, t.unbounded? vars = some n.toInt
  exponent {l r : Tree} {y : Int} (ht : t = .binary .pow l r) (hy : r.unbounded? vars = some y) :
    y < UInt32.size

def Contained (vars : Variables) (t : Tree) : Prop := ∀ s, Part s t → Fits vars s

variable {t l r : Tree}

lemma contained_group_iff : Contained vars (.group t) ↔ Contained vars t := by
  constructor
  · exact fun h s hs => h s (.group hs)
  · intro h s hs
    cases hs with
    | self => exact ⟨(h t (.self t)).value, fun ht => by cases ht⟩
    | group hs => exact h s hs

lemma contained_unary_iff {o : UnaryOp} :
    Contained vars (.unary o t) ↔ Fits vars (.unary o t) ∧ Contained vars t := by
  constructor
  · exact fun h => ⟨h _ (.self _), fun s hs => h s (.unary hs)⟩
  · rintro ⟨hfits, h⟩ s hs
    cases hs with
    | self => exact hfits
    | unary hs => exact h s hs

lemma contained_binary_iff {o : BinaryOp} :
    Contained vars (.binary o l r) ↔
      Fits vars (.binary o l r) ∧ Contained vars l ∧ Contained vars r := by
  constructor
  · exact fun h => ⟨h _ (.self _), fun s hs => h s (.left hs), fun s hs => h s (.right hs)⟩
  · rintro ⟨hfits, hl, hr⟩ s hs
    cases hs with
    | self => exact hfits
    | left hs => exact hl s hs
    | right hs => exact hr s hs

/-- Evaluation of `t` comes to `x`: no text, and a whole number just when all parts of the tree
have exact values that fit. -/
structure Computes (vars : Variables) (t : Tree) (x : Except EvalError Value) : Prop where
  eval : t.eval vars = lift x
  numeric {v : Value} (h : x = .ok v) : v.isNumeric = true
  integer_iff (n : Int64) :
    x = .ok (.integer n) ↔ t.unbounded? vars = some n.toInt ∧ Contained vars t

namespace Computes

variable {x y : Except EvalError Value}

lemma leaf (heval : t.eval vars = lift (.ok (.integer n)))
    (hexact : t.unbounded? vars = some n.toInt) (hpart : ∀ s, Part s t → s = t)
    (hpow : ∀ l r, t ≠ .binary .pow l r) :
    Computes vars t (.ok (.integer n)) where
  eval := heval
  numeric h := by
    cases h
    rfl
  integer_iff m := by
    have hcontained : Contained vars t := by
      intro s hs
      rw [hpart s hs]
      exact ⟨⟨n, hexact⟩, fun ht => absurd ht (hpow _ _)⟩
    simp [hexact, hcontained, Int64.toInt_inj]

lemma group (h : Computes vars t x) : Computes vars (.group t) x where
  eval := by
    rw [Tree.eval]
    exact h.eval
  numeric := h.numeric
  integer_iff n := by
    rw [contained_group_iff]
    exact h.integer_iff n

lemma bind_eq_ok_iff {f : Value → Except EvalError Value} {v : Value} :
    x.bind f = .ok v ↔ ∃ u, x = .ok u ∧ f u = .ok v := by
  cases x <;> simp [Except.bind]

lemma lift_bind (f : Value → Except EvalError Value) :
    (lift x >>= fun v => lift (f v)) = lift (x.bind f) := by
  cases x <;> rfl

lemma unary {o : UnaryOp} (ho : o ≠ .not) (h : Computes vars t x) :
    Computes vars (.unary o t) (x.bind o.apply) where
  eval := by
    rw [Tree.eval, h.eval]
    exact lift_bind _
  numeric hv := by
    obtain ⟨u, -, hu⟩ := bind_eq_ok_iff.1 hv
    exact isNumeric_of_unary ho hu
  integer_iff n := by
    -- a whole result comes from a whole operand, and from no other
    rw [bind_eq_ok_iff, contained_unary_iff]
    constructor
    · rintro ⟨v, hx, hv⟩
      obtain ⟨a, rfl, ha⟩ := (unary_eq_integer_iff ho).1 hv
      obtain ⟨hexact, hcontained⟩ := (h.integer_iff a).1 hx
      have hvalue : (Tree.unary o t).unbounded? vars = some n.toInt := by
        rw [unbounded?, hexact]
        exact ha
      exact ⟨hvalue, ⟨⟨n, hvalue⟩, fun ht => by cases ht⟩, hcontained⟩
    · rintro ⟨hvalue, -, hcontained⟩
      obtain ⟨a, ha⟩ := (hcontained t (.self t)).value
      rw [unbounded?, ha] at hvalue
      exact ⟨.integer a, (h.integer_iff a).2 ⟨ha, hcontained⟩,
        (unary_eq_integer_iff ho).2 ⟨a, rfl, hvalue⟩⟩

lemma binary {o : BinaryOp} (ho : o ∈ arithmeticOps) (hl : Computes vars l x)
    (hr : Computes vars r y) :
    Computes vars (.binary o l r) (x.bind fun v => y.bind fun w => o.apply v w) where
  eval := by
    rw [Tree.eval, hl.eval, hr.eval]
    cases x with
    | error e => rfl
    | ok v => exact lift_bind _
  numeric hv := by
    obtain ⟨u, hu, huv⟩ := bind_eq_ok_iff.1 hv
    obtain ⟨w, -, hw⟩ := bind_eq_ok_iff.1 huv
    exact isNumeric_of_binary ho (hl.numeric hu) hw
  integer_iff n := by
    rw [contained_binary_iff]
    constructor
    · -- both operands are whole, and so exact by induction
      intro hn
      obtain ⟨v, hx, hv⟩ := bind_eq_ok_iff.1 hn
      obtain ⟨w, hy, hw⟩ := bind_eq_ok_iff.1 hv
      obtain ⟨a, b, rfl, rfl, hexact, hpow⟩ := (binary_eq_integer_iff ho).1 hw
      obtain ⟨ha, hcl⟩ := (hl.integer_iff a).1 hx
      obtain ⟨hb, hcr⟩ := (hr.integer_iff b).1 hy
      have hvalue : (Tree.binary o l r).unbounded? vars = some n.toInt := by
        rw [unbounded?, ha, hb]
        exact hexact
      refine ⟨hvalue, ⟨⟨n, hvalue⟩, fun ht hy => ?_⟩, hcl, hcr⟩
      cases ht
      cases hb.symm.trans hy
      exact hpow rfl
    · rintro ⟨hvalue, hfits, hcl, hcr⟩
      obtain ⟨a, ha⟩ := (hcl l (.self l)).value
      obtain ⟨b, hb⟩ := (hcr r (.self r)).value
      rw [unbounded?, ha, hb] at hvalue
      -- that all parts fit bounds the exponent as well
      have hpow : o = .pow → b.toInt < UInt32.size := by
        rintro rfl
        exact hfits.exponent rfl hb
      rw [(hl.integer_iff a).2 ⟨ha, hcl⟩, (hr.integer_iff b).2 ⟨hb, hcr⟩]
      exact (binary_eq_integer_iff ho).2 ⟨a, b, rfl, rfl, hvalue, hpow⟩

end Computes

/-- What the evaluation of a tree over whole numbers comes to, by induction on the tree. -/
theorem Whole.computes (h : Whole vars t) : ∃ x, Computes vars t x := by
  induction h with
  | literal n =>
    exact ⟨_, .leaf rfl rfl (fun s hs => by cases hs; rfl) (by simp)⟩
  | @name x n hn =>
    refine ⟨_, .leaf (n := n) ?_ ?_ (fun s hs => by cases hs; rfl) (by simp)⟩
    · rw [Tree.eval, symbolValue, hn]
    · rw [unbounded?, hn]
  | group h ih =>
    obtain ⟨x, hx⟩ := ih
    exact ⟨x, hx.group⟩
  | unary ho h ih =>
    obtain ⟨x, hx⟩ := ih
    exact ⟨_, hx.unary ho⟩
  | binary ho hl hr ihl ihr =>
    obtain ⟨x, hx⟩ := ihl
    obtain ⟨y, hy⟩ := ihr
    exact ⟨_, .binary ho hx hy⟩

/-! ### Results -/

/-- A result of the tree `t`: a whole number is its exact value, and where a part has no exact value
that fits, the result is a float or an error. -/
structure Faithful (vars : Variables) (t : Tree) (r : EStateM.Result EvalError Generator Value) :
    Prop where
  exact {n : Int64} {g : Generator} (h : r = .ok (.integer n) g) : t.unbounded? vars = some n.toInt
  strayed {s : Tree} (hs : Part s t) (h : ∀ n : Int64, s.unbounded? vars ≠ some n.toInt) :
    (∃ x g, r = .ok (.float x) g) ∨ ∃ e g, r = .error e g

lemma faithful_error (vars : Variables) (t : Tree) (e : EvalError) (g : Generator) :
    Faithful vars t (.error e g) where
  exact h := by cases h
  strayed _ _ := .inr ⟨e, g, rfl⟩

lemma Computes.faithful {x : Except EvalError Value} (h : Computes vars t x) (g : Generator) :
    Faithful vars t (t.eval vars g) := by
  rw [h.eval]
  cases x with
  | error e => exact faithful_error vars t e g
  | ok v =>
    cases v with
    | integer n =>
      obtain ⟨hexact, hcontained⟩ := (h.integer_iff n).1 rfl
      refine ⟨fun hn => ?_, fun hs hstray => ?_⟩
      · cases hn
        exact hexact
      · obtain ⟨m, hm⟩ := (hcontained _ hs).value
        exact absurd hm (hstray m)
    | float x =>
      refine ⟨fun hn => ?_, fun _ _ => .inl ⟨x, g, rfl⟩⟩
      cases hn
    -- arithmetic gives no text
    | text t => cases h.numeric rfl

/-- **A whole result is exact.** Whatever whole number comes out of a tree over whole numbers is its
value among the unbounded ones; where a part of it has no such value or one that does not fit, a
float or an error comes out. A tree all of whose parts fit gives a whole number. -/
theorem integer_result_exact (h : t.Whole vars) (g : Generator) :
    Faithful vars t (runPostfix vars t.postorder [] g) ∧
      (∀ limits text toks, tokenize vars limits text = .ok toks → parse? toks = some t →
        Faithful vars t (evaluate vars limits text g)) ∧
      (t.Contained vars → ∃ n, runPostfix vars t.postorder [] g = .ok (.integer n) g) := by
  obtain ⟨x, hx⟩ := h.computes
  rw [runPostfix_postorder_nil]
  refine ⟨hx.faithful g, fun limits text toks htoks ht => ?_, fun hcontained => ?_⟩
  · cases hcode : compile vars limits text with
    | error e =>
      rw [evaluate_of_compile_error hcode]
      exact faithful_error vars t e g
    | ok code =>
      -- the text has one tree, so it is the given one
      obtain ⟨toks', tree, htoks', htree, heval⟩ := exists_tree_of_compile hcode
      cases htoks.symm.trans htoks'
      cases ht.symm.trans htree
      rw [heval]
      exact hx.faithful g
  · obtain ⟨n, hn⟩ := (hcontained t (.self t)).value
    have hok := (hx.integer_iff n).2 ⟨hn, hcontained⟩
    rw [hx.eval, hok]
    exact ⟨n, rfl⟩

/-- The least number has no opposite of 64 bits, but its remainder by -1 is exact. -/
theorem integer_result_exact_least :
    ((∃ x g, evaluate ⟨[("X".toList, .integer Int64.minValue)]⟩ {} "-X".toList default =
          .ok (.float x) g) ∨
        ∃ e g, evaluate ⟨[("X".toList, .integer Int64.minValue)]⟩ {} "-X".toList default =
          .error e g) ∧
      (Tree.binary .mod (.name "X".toList) (.unary .neg (.literal (.integer 1)))).unbounded?
        ⟨[("X".toList, .integer Int64.minValue)]⟩ = some 0 := by
  have hX : Whole ⟨[("X".toList, .integer Int64.minValue)]⟩ (.name "X".toList) :=
    .name (n := Int64.minValue) rfl
  have hneg := integer_result_exact (hX.unary (o := .neg) (by decide)) default
  have hmod := integer_result_exact
    (.binary (o := .mod) (by decide) hX (.unary (o := .neg) (by decide) (.literal 1))) default
  constructor
  · have htoks : tokenize ⟨[("X".toList, .integer Int64.minValue)]⟩ {} "-X".toList =
        .ok [.operator (.unary .neg), .name "X".toList] := by with_unfolding_all rfl
    have hparse : parse? [.operator (.unary .neg), .name "X".toList] =
        some (.unary .neg (.name "X".toList)) := by simp [parse?, climb, operand, extend]
    refine (hneg.2.1 _ _ _ htoks hparse).strayed (.self _) fun n hn => ?_
    have hvalue : (9223372036854775808 : Int) = n.toInt := Option.some.inj hn
    have hmax : Int64.maxValue.toInt = 9223372036854775807 := by decide
    have hhigh := n.toInt_le
    omega
  · exact hmod.1.exact (n := 0) (g := default) rfl

end Tree

end Expr

end Courseware
