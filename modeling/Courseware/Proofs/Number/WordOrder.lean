import Courseware.Number.Binary
import Mathlib.Tactic.Lemma
import Mathlib.Tactic.NormNum
import Mathlib.Tactic.Positivity

/-!
Whole numbers as floats, and their order.

A float that is not zero is kept as a mantissa of 53 bits and an exponent, and floats of one sign
are compared by exponent first. A whole number below `2 ^ 53` is its own mantissa, moved up until
it has 53 bits, so its float is exact. From there on floats have a positive exponent. Thus two
whole numbers compare as their floats do, unless both are so large, and on the same side of zero,
that rounding may bring them together.
-/

namespace Courseware.Number

open Float.Model Float.Model.UnpackedFloat

/-! ### Rounding -/

lemma mantissa_shiftRight (x : ExtendedMantissa) (k : ℕ) :
    (x >>> k).mantissa = x.mantissa / 2 ^ k := by
  induction k with
  | zero => simp [HShiftRight.hShiftRight, Nat.repeat]
  | succ k ih =>
    change (x >>> k).mantissa / 2 = x.mantissa / 2 ^ (k + 1)
    rw [ih, Nat.div_div_eq_div_mul, pow_succ]

/-- Zeros are shifted out without a trace. -/
lemma shiftRight_exact (m k : ℕ) :
    (⟨m * 2 ^ k, false, false⟩ : ExtendedMantissa) >>> k = ⟨m, false, false⟩ := by
  induction k generalizing m with
  | zero => simp [HShiftRight.hShiftRight, Nat.repeat]
  | succ k ih =>
    have hlast := ih (m * 2)
    rw [mul_assoc, ← pow_succ'] at hlast
    change ((⟨m * 2 ^ (k + 1), false, false⟩ : ExtendedMantissa) >>> k).shiftRightOne = _
    rw [hlast]
    simp [ExtendedMantissa.shiftRightOne]

lemma roundedMantissa_bounds (x : ExtendedMantissa) :
    x.mantissa ≤ x.roundedMantissa ∧ x.roundedMantissa ≤ x.mantissa + 1 := by
  obtain ⟨m, round, sticky⟩ := x
  have hparity : m % 2 < 2 := Nat.mod_lt m two_pos
  cases round <;> cases sticky <;>
    simp only [ExtendedMantissa.roundedMantissa, ExtendedMantissa.accuracy,
      Accuracy.roundToNearestEven] <;> omega

lemma mantissaBits_eq : Format.binary64.mantissaBits = 53 := rfl

lemma shiftToTargetExponent_eq {m k : ℕ} {e : ℤ} (hlog : m.log2 = 52 + k) (he : -1074 ≤ e) :
    shiftToTargetExponent .binary64 m (e - k) .exact =
      ((⟨m, false, false⟩ : ExtendedMantissa) >>> k, e) := by
  have htarget : Format.binary64.targetExponent (totalExponent m (e - k)) = e := by
    simp only [Format.targetExponent, totalExponent, mantissaBits_eq, Format.minExponent, hlog]
    omega
  have hshift : (e - (e - (k : ℤ))).toNat = k := by omega
  simp only [shiftToTargetExponent, htarget, shiftToExponent, hshift,
    ExtendedMantissa.ofMantissaAndAccuracy]
  rw [sub_add_cancel]

/-- A mantissa of 53 bits stays as it is. -/
lemma shiftToTargetExponent_self {m : ℕ} {e : ℤ} (hlow : 2 ^ 52 ≤ m) (hhigh : m < 2 ^ 53)
    (he : -1074 ≤ e) :
    shiftToTargetExponent .binary64 m e .exact = (⟨m, false, false⟩, e) := by
  have hlog : m.log2 = 52 + 0 := (Nat.log2_eq_iff (by omega)).2 ⟨hlow, hhigh⟩
  have hshift := shiftToTargetExponent_eq hlog he
  rwa [Nat.cast_zero, sub_zero] at hshift

lemma shiftToTargetExponent_carry {e : ℤ} (he : -1074 ≤ e) :
    shiftToTargetExponent .binary64 (2 ^ 53) e .exact = (⟨2 ^ 52, false, false⟩, e + 1) := by
  have hshift := shiftToTargetExponent_eq (m := 2 ^ 53) (k := 1) (e := e + 1)
    Nat.log2_two_pow (by omega)
  rwa [Nat.cast_one, add_sub_cancel_right, show 2 ^ 53 = 2 ^ 52 * 2 ^ 1 from rfl,
    shiftRight_exact] at hshift

lemma roundWithAccuracy_eq {m : ℕ} {e e₁ e₂ : ℤ} {x y : ExtendedMantissa} (s : Sign)
    (hfirst : shiftToTargetExponent .binary64 m e .exact = (x, e₁))
    (hsecond : shiftToTargetExponent .binary64 x.roundedMantissa e₁ .exact = (y, e₂))
    (hy : 0 < y.mantissa) :
    roundWithAccuracy .binary64 s m e .exact = .finite s y.mantissa e₂ hy := by
  unfold roundWithAccuracy
  rw [hfirst]
  dsimp only
  rw [hsecond]
  dsimp only
  rw [dif_neg hy.ne']

/-- Rounding a mantissa with `k` bits too many. The exponent may go up by one, and a mantissa that
ends in `k` zeros is kept exactly. -/
lemma exists_roundWithAccuracy {m k : ℕ} {e : ℤ} (s : Sign) (hlog : m.log2 = 52 + k)
    (he : -1074 ≤ e) :
    ∃ r e', ∃ hr : 0 < r, roundWithAccuracy .binary64 s m (e - k) .exact = .finite s r e' hr ∧
      2 ^ 52 ≤ r ∧ r < 2 ^ 53 ∧ e ≤ e' ∧ e' ≤ e + 1 ∧ ∀ q, m = q * 2 ^ k → r = q ∧ e' = e := by
  set x : ExtendedMantissa := (⟨m, false, false⟩ : ExtendedMantissa) >>> k with hx
  have hfloor : x.mantissa = m / 2 ^ k := mantissa_shiftRight _ k
  have hm : m ≠ 0 := by
    rintro rfl
    rw [Nat.log2_zero] at hlog
    omega
  obtain ⟨hlo, hhi⟩ := (Nat.log2_eq_iff hm).1 hlog
  have hlow : 2 ^ 52 ≤ x.mantissa := by
    rw [hfloor, Nat.le_div_iff_mul_le (by positivity), ← pow_add]
    exact hlo
  have hhigh : x.mantissa < 2 ^ 53 := by
    rw [hfloor, Nat.div_lt_iff_lt_mul (by positivity), ← pow_add]
    have hexp : 52 + k + 1 = 53 + k := by omega
    rwa [hexp] at hhi
  obtain ⟨hround, hround'⟩ := roundedMantissa_bounds x
  have hfirst := shiftToTargetExponent_eq hlog he
  have hexact : ∀ q, m = q * 2 ^ k → x.roundedMantissa = q ∧ q < 2 ^ 53 := by
    rintro q rfl
    rw [shiftRight_exact] at hx
    rw [hx] at hhigh ⊢
    exact ⟨rfl, hhigh⟩
  -- rounding up may make the mantissa one bit longer
  rcases Nat.lt_or_ge x.roundedMantissa (2 ^ 53) with hlt | hge
  · have hsecond := shiftToTargetExponent_self (by omega) hlt he
    exact ⟨x.roundedMantissa, e, by omega, roundWithAccuracy_eq s hfirst hsecond _, by omega, hlt,
      le_rfl, by omega, fun q hq => ⟨(hexact q hq).1, rfl⟩⟩
  · have hcarry : x.roundedMantissa = 2 ^ 53 := by omega
    have hsecond := shiftToTargetExponent_carry he
    rw [← hcarry] at hsecond
    refine ⟨2 ^ 52, e + 1, by positivity, roundWithAccuracy_eq s hfirst hsecond _, le_rfl,
      by norm_num, by omega, le_rfl, fun q hq => ?_⟩
    have hq' := hexact q hq
    omega

/-! ### The floats of whole numbers -/

/-- A mantissa of 53 bits, with an exponent that is far from its bounds. -/
structure Moderate (m : ℕ) (e : ℤ) : Prop where
  low : 2 ^ 52 ≤ m
  high : m < 2 ^ 53
  small : -52 ≤ e
  large : e ≤ 12

lemma Moderate.pos {m : ℕ} {e : ℤ} (h : Moderate m e) : 0 < m :=
  Nat.lt_of_lt_of_le (by positivity) h.low

/-- The sign is read back from the bits of a float. -/
lemma sign_packed {f : Format} (s : Sign) (e : BitVec f.exponentBits)
    (m : BitVec f.mantissaBitsWithoutImplicit) :
    Sign.ofBitVec (unpackSign (packComponents f s e m)) = s := by
  have hsign : unpackSign (packComponents f s e m) = s.toBitVec := by
    delta unpackSign packComponents
    ext i hi
    obtain rfl : i = 0 := by omega
    simp [BitVec.getLsbD_append, BitVec.getElem_append]
  rw [hsign]
  cases s <;> rfl

lemma finite_congr {s s' : Sign} {m m' : ℕ} {e e' : ℤ} {h : 0 < m} {h' : 0 < m'} (hs : s = s')
    (hm : m = m') (he : e = e') : UnpackedFloat.finite s m e h = .finite s' m' e' h' := by
  subst hs hm he
  rfl

/-- Mantissa and exponent are read back from the bits of a float. -/
lemma unpack_pack {m : ℕ} {e : ℤ} (s : Sign) (h : Moderate m e) :
    (Float.Model.pack (.finite s m e h.pos)).unpack = .finite s m e h.pos := by
  obtain ⟨hlow, hhigh, hsmall, hlarge⟩ := h
  obtain ⟨j, rfl⟩ : ∃ j : ℕ, e = j - 1074 := ⟨(e + 1074).toNat, by omega⟩
  have hlog : m.log2 = 52 := (Nat.log2_eq_iff (by omega)).2 ⟨hlow, hhigh⟩
  -- the number is neither too large nor subnormal
  have hpack : UnpackedFloat.pack .binary64 (.finite s m (j - 1074) (by omega)) =
      packComponents .binary64 s (BitVec.ofNat 11 (j + 1)) (BitVec.ofNat 52 m) := by
    have hbiased :
        ((j - 1074 : ℤ) + (Format.binary64.exponentBias : ℕ) + (52 : ℕ)).toNat = j + 1 := by
      simp only [Format.exponentBias]
      omega
    delta UnpackedFloat.pack
    dsimp only
    rw [hbiased, if_neg (by norm_num; omega), if_pos (by rw [hlog]; rfl)]
  have hexp : (BitVec.ofNat 11 (j + 1)).toNat = j + 1 := by
    rw [BitVec.toNat_ofNat]
    omega
  -- so its exponent is not one of the two special ones
  have hinf : BitVec.ofNat 11 (j + 1) ≠ -1#11 := by
    intro h
    have hnat := congrArg BitVec.toNat h
    rw [hexp, show (-1#11).toNat = 2047 from rfl] at hnat
    omega
  have hzero : BitVec.ofNat 11 (j + 1) ≠ 0#11 := by
    intro h
    have hnat := congrArg BitVec.toNat h
    rw [hexp] at hnat
    cases hnat
  -- the leading bit is not stored
  have hmant : (1#1 ++ BitVec.ofNat 52 m).toNat = m := by
    rw [BitVec.toNat_append, BitVec.toNat_ofNat, ← Nat.shiftLeft_add_eq_or_of_lt (by omega)]
    simp only [BitVec.toNat_ofNat, Nat.shiftLeft_eq]
    omega
  change UnpackedFloat.unpack .binary64 (UnpackedFloat.pack .binary64 _) = _
  rw [hpack]
  unfold UnpackedFloat.unpack
  dsimp only
  rw [if_neg (by rwa [unpackExponent_packComponents]),
    if_neg (by rwa [unpackExponent_packComponents])]
  refine finite_congr (sign_packed s _ _) ?_ ?_
  · rw [unpackMantissa_packComponents]
    exact hmant
  · rw [unpackExponent_packComponents, hexp]
    simp only [Format.exponentBias]
    omega

lemma log2_mul_pow {n : ℕ} (hn : n ≠ 0) (k : ℕ) : (n * 2 ^ k).log2 = n.log2 + k := by
  induction k with
  | zero => rw [pow_zero, mul_one, add_zero]
  | succ k ih =>
    have hne : n * 2 ^ k ≠ 0 := by positivity
    rw [pow_succ, ← mul_assoc, mul_comm _ 2, Nat.log2_two_mul hne, ih, add_assoc]

/-- A number below `2 ^ 53`, moved up until it has 53 bits. -/
lemma moderate_of_lt {n : ℕ} (hpos : 0 < n) (hn : n < 2 ^ 53) :
    Moderate (n * 2 ^ (52 - n.log2)) (n.log2 - 52) := by
  have hlog : n.log2 < 53 := (Nat.log2_lt hpos.ne').2 hn
  have hmlog : (n * 2 ^ (52 - n.log2)).log2 = 52 := by
    rw [log2_mul_pow hpos.ne']
    omega
  obtain ⟨hlow, hhigh⟩ := (Nat.log2_eq_iff (by positivity)).1 hmlog
  exact ⟨hlow, hhigh, by omega, by omega⟩

lemma round_of_lt {n : ℕ} (hpos : 0 < n) (hn : n < 2 ^ 53) :
    UnpackedFloat.round .binary64 .positive n 0 =
      .finite .positive (n * 2 ^ (52 - n.log2)) (n.log2 - 52) (moderate_of_lt hpos hn).pos := by
  have hlog : n.log2 < 53 := (Nat.log2_lt hpos.ne').2 hn
  have htarget : Format.binary64.targetExponent (totalExponent n 0) = n.log2 - 52 := by
    simp only [Format.targetExponent, totalExponent, mantissaBits_eq, Format.minExponent]
    omega
  have hshift : (0 - ((n.log2 : ℤ) - 52)).toNat = 52 - n.log2 := by omega
  have hexp : (0 : ℤ) - (52 - n.log2 : ℕ) = n.log2 - 52 := by omega
  conv_lhs =>
    simp only [UnpackedFloat.round, htarget, decreaseExponent, hshift, hexp, Nat.shiftLeft_eq]
  obtain ⟨hlow, hhigh, hsmall, -⟩ := moderate_of_lt hpos hn
  have hself := shiftToTargetExponent_self hlow hhigh (e := n.log2 - 52) (by omega)
  exact roundWithAccuracy_eq .positive hself hself _

lemma unpack_ofUInt64 {n : ℕ} (hpos : 0 < n) (hn : n < 2 ^ 53) :
    (Float.Model.ofUInt64 n.toUInt64).unpack =
      .finite .positive (n * 2 ^ (52 - n.log2)) (n.log2 - 52) (moderate_of_lt hpos hn).pos := by
  have hword : n.toUInt64.toNat = n := by
    rw [UInt64.toNat_ofNat']
    omega
  have hgt : compare (n : ℤ) 0 = .gt := compare_gt_iff_gt.2 (by omega)
  have hround : UnpackedFloat.ofUInt64 .binary64 n.toUInt64 =
      UnpackedFloat.round .binary64 .positive n 0 := by
    simp only [UnpackedFloat.ofUInt64, UnpackedFloat.ofNat, UnpackedFloat.ofInt,
      UnpackedFloat.normalize, hword, hgt, Int.toNat_natCast]
  unfold Float.Model.ofUInt64
  rw [hround, round_of_lt hpos hn]
  exact unpack_pack _ (moderate_of_lt hpos hn)

/-- The number one, as it stands in the table of powers of ten. -/
lemma unpack_one : (Float.ofBits 4607182418800017408).toModel.unpack =
    .finite .positive (2 ^ 52) (-52) (Nat.two_pow_pos 52) := rfl

/-- Multiplying by one changes nothing. -/
lemma mul_one_eq {m : ℕ} {e : ℤ} (h : Moderate m e) :
    UnpackedFloat.mul .binary64 (.finite .positive m e h.pos)
      (.finite .positive (2 ^ 52) (-52) (Nat.two_pow_pos 52)) = .finite .positive m e h.pos := by
  have hlog : (m * 2 ^ 52).log2 = 52 + 52 := by
    rw [log2_mul_pow h.pos.ne', (Nat.log2_eq_iff h.pos.ne').2 ⟨h.low, h.high⟩]
  have hsmall := h.small
  obtain ⟨r, e', hr, hround, -, -, -, -, hexact⟩ :=
    exists_roundWithAccuracy .positive hlog (e := e) (by omega)
  obtain ⟨rfl, rfl⟩ := hexact m rfl
  exact hround

/-- The float of a number below `2 ^ 53` is exact. -/
lemma unpack_ofNat_of_lt {n : ℕ} (hpos : 0 < n) (hn : n < 2 ^ 53) :
    (Float.ofNat n).toModel.unpack =
      .finite .positive (n * 2 ^ (52 - n.log2)) (n.log2 - 52) (moderate_of_lt hpos hn).pos := by
  have hfloat : (Float.ofNat n).toModel = Float.Model.pack
      (UnpackedFloat.mul .binary64 (Float.Model.ofUInt64 n.toUInt64).unpack
        (Float.ofBits 4607182418800017408).toModel.unpack) := by
    change (Float.ofScientific n false 0).toModel = _
    unfold Float.ofScientific
    rw [dif_pos ⟨hn, by omega⟩]
    rfl
  rw [hfloat, unpack_ofUInt64 hpos hn, unpack_one, mul_one_eq (moderate_of_lt hpos hn)]
  exact unpack_pack _ (moderate_of_lt hpos hn)

/-- The float of a number from `2 ^ 53` on has a positive exponent. -/
lemma unpack_ofNat_of_ge {n : ℕ} (hn : 2 ^ 53 ≤ n) (hn' : n < 2 ^ 64) :
    ∃ m e, ∃ h : Moderate m e, 1 ≤ e ∧
      (Float.ofNat n).toModel.unpack = .finite .positive m e h.pos := by
  have hpos : n ≠ 0 := by omega
  have hlog : 53 ≤ n.log2 := (Nat.le_log2 hpos).2 hn
  have hlog' : n.log2 < 64 := (Nat.log2_lt hpos).2 hn'
  -- the number is first moved up, so that rounding sees all of its bits
  have hbig : (n <<< 53 * 10 ^ 0).log2 = 52 + (n.log2 + 1) := by
    rw [pow_zero, mul_one, Nat.shiftLeft_eq, log2_mul_pow hpos]
    omega
  obtain ⟨m, e, hm, hround, hlow, hhigh, hle, hge, -⟩ :=
    exists_roundWithAccuracy .positive hbig (e := n.log2 - 52) (by omega)
  have hexp : ((n.log2 - 52 : ℤ) - (n.log2 + 1 : ℕ)) = -(53 : ℕ) + 0 := by omega
  rw [hexp] at hround
  have hmod : Moderate m e := ⟨hlow, hhigh, by omega, by omega⟩
  have hfloat : (Float.ofNat n).toModel = Float.Model.ofScientific n 0 := by
    change (Float.ofScientific n false 0).toModel = _
    unfold Float.ofScientific
    rw [dif_neg (by omega)]
    rfl
  have hscaled : UnpackedFloat.ofScientific .binary64 n 0 = .finite .positive m e hm := by
    unfold UnpackedFloat.ofScientific
    rw [dif_neg hpos, if_neg (by norm_num), if_neg (by norm_num), if_pos le_rfl]
    exact hround
  refine ⟨m, e, hmod, by omega, ?_⟩
  rw [hfloat, Float.Model.ofScientific, hscaled]
  exact unpack_pack _ hmod

/-! ### Order -/

/-- By exponent first, then by mantissa. -/
def Below (m : ℕ) (e : ℤ) (m' : ℕ) (e' : ℤ) : Prop := e < e' ∨ e = e' ∧ m < m'

lemma Below.compare_eq {m m' : ℕ} {e e' : ℤ} (h : Below m e m' e') :
    (compare e e').then (compare m m') = .lt ∧ (compare e' e).then (compare m' m) = .gt := by
  rcases h with he | ⟨rfl, hm⟩
  · rw [compare_lt_iff_lt.2 he, compare_gt_iff_gt.2 he]
    exact ⟨rfl, rfl⟩
  · rw [compare_eq_iff_eq.2 rfl, compare_lt_iff_lt.2 hm, compare_gt_iff_gt.2 hm]
    exact ⟨rfl, rfl⟩

/-- The smaller of two numbers has the smaller float if it is below `2 ^ 53`. -/
lemma below_of_lt {p q : ℕ} (hp : 0 < p) (hpq : p < q) (hsmall : p < 2 ^ 53) (hq : q < 2 ^ 64) :
    ∃ m e m' e', ∃ (h : Moderate m e) (h' : Moderate m' e'), Below m e m' e' ∧
      (Float.ofNat p).toModel.unpack = .finite .positive m e h.pos ∧
      (Float.ofNat q).toModel.unpack = .finite .positive m' e' h'.pos := by
  have hlog : p.log2 < 53 := (Nat.log2_lt hp.ne').2 hsmall
  rcases Nat.lt_or_ge q (2 ^ 53) with hlt | hge
  · refine ⟨_, _, _, _, moderate_of_lt hp hsmall, moderate_of_lt (by omega) hlt, ?_,
      unpack_ofNat_of_lt hp hsmall, unpack_ofNat_of_lt (by omega) hlt⟩
    -- both are exact: the one with fewer bits is the smaller
    have hle : p.log2 ≤ q.log2 :=
      (Nat.le_log2 (by omega)).2 ((Nat.log2_self_le hp.ne').trans hpq.le)
    rcases hle.lt_or_eq with hloglt | heq
    · exact .inl (by omega)
    · refine .inr ⟨by rw [heq], ?_⟩
      rw [heq]
      exact Nat.mul_lt_mul_of_pos_right hpq (by positivity)
  · -- the larger has been rounded, and its exponent is the larger one
    obtain ⟨m', e', h', hpos, hunpack⟩ := unpack_ofNat_of_ge hge hq
    exact ⟨_, _, m', e', moderate_of_lt hp hsmall, h', .inl (by omega),
      unpack_ofNat_of_lt hp hsmall, hunpack⟩

lemma unpack_neg {p m : ℕ} {e : ℤ} (h : Moderate m e) (hp : 0 < p)
    (hunpack : (Float.ofNat p).toModel.unpack = .finite .positive m e h.pos) :
    (Float.ofInt (-p)).toModel.unpack = .finite .negative m e h.pos := by
  obtain ⟨k, rfl⟩ := Nat.exists_eq_add_of_lt hp
  rw [zero_add] at hunpack ⊢
  change (Float.Model.pack (Float.ofNat (k + 1)).toModel.unpack.neg).unpack = _
  rw [hunpack]
  exact unpack_pack _ h

lemma unpack_zero : (Float.ofInt 0).toModel.unpack = .zero .positive := rfl

lemma exists_unpack_of_pos {x : ℤ} (hpos : 0 < x) (hx : x < 2 ^ 64) :
    ∃ m e, ∃ h : 0 < m, (Float.ofInt x).toModel.unpack = .finite .positive m e h := by
  obtain ⟨p, rfl⟩ : ∃ p : ℕ, x = p := ⟨x.natAbs, by omega⟩
  rcases Nat.lt_or_ge p (2 ^ 53) with hlt | hge
  · exact ⟨_, _, _, unpack_ofNat_of_lt (by omega) hlt⟩
  · obtain ⟨m, e, h, -, hunpack⟩ := unpack_ofNat_of_ge hge (by omega)
    exact ⟨m, e, h.pos, hunpack⟩

lemma exists_unpack_of_neg {x : ℤ} (hneg : x < 0) (hx : -2 ^ 64 < x) :
    ∃ m e, ∃ h : 0 < m, (Float.ofInt x).toModel.unpack = .finite .negative m e h := by
  obtain ⟨p, rfl⟩ : ∃ p : ℕ, x = -p := ⟨x.natAbs, by omega⟩
  rcases Nat.lt_or_ge p (2 ^ 53) with hlt | hge
  · have hmod := moderate_of_lt (n := p) (by omega) hlt
    exact ⟨_, _, hmod.pos, unpack_neg hmod (by omega) (unpack_ofNat_of_lt (by omega) hlt)⟩
  · obtain ⟨m, e, h, -, hunpack⟩ := unpack_ofNat_of_ge hge (by omega)
    exact ⟨m, e, h.pos, unpack_neg h (by omega) hunpack⟩

/-- Two whole numbers compare as their floats do, if the smaller is below `2 ^ 53` and the larger
above `- 2 ^ 53`. -/
lemma compare_ofInt {x y : ℤ} (hxy : x < y) (hx : x < 2 ^ 53) (hy : -2 ^ 53 < y)
    (hx' : -2 ^ 64 < x) (hy' : y < 2 ^ 64) :
    (Float.ofInt x).toModel.unpack.compare (Float.ofInt y).toModel.unpack = some .lt ∧
      (Float.ofInt y).toModel.unpack.compare (Float.ofInt x).toModel.unpack = some .gt := by
  rcases lt_trichotomy x 0 with hneg | rfl | hpos
  · rcases lt_trichotomy y 0 with hneg' | rfl | hpos'
    · -- below zero the order of the absolute values is turned around
      obtain ⟨p, rfl⟩ : ∃ p : ℕ, x = -p := ⟨x.natAbs, by omega⟩
      obtain ⟨q, rfl⟩ : ∃ q : ℕ, y = -q := ⟨y.natAbs, by omega⟩
      obtain ⟨m, e, m', e', h, h', hbelow, hq, hp⟩ :=
        below_of_lt (p := q) (q := p) (by omega) (by omega) (by omega) (by omega)
      rw [unpack_neg h' (by omega) hp, unpack_neg h (by omega) hq]
      exact ⟨congrArg (fun o : Ordering => some o.swap) hbelow.compare_eq.2,
        congrArg (fun o : Ordering => some o.swap) hbelow.compare_eq.1⟩
    · obtain ⟨m, e, h, hunpack⟩ := exists_unpack_of_neg hneg hx'
      rw [hunpack, unpack_zero]
      exact ⟨rfl, rfl⟩
    · obtain ⟨m, e, h, hunpack⟩ := exists_unpack_of_neg hneg hx'
      obtain ⟨m', e', h', hunpack'⟩ := exists_unpack_of_pos hpos' hy'
      rw [hunpack, hunpack']
      exact ⟨rfl, rfl⟩
  · obtain ⟨m, e, h, hunpack⟩ := exists_unpack_of_pos hxy hy'
    rw [hunpack, unpack_zero]
    exact ⟨rfl, rfl⟩
  · obtain ⟨p, rfl⟩ : ∃ p : ℕ, x = p := ⟨x.natAbs, by omega⟩
    obtain ⟨q, rfl⟩ : ∃ q : ℕ, y = q := ⟨y.natAbs, by omega⟩
    obtain ⟨m, e, m', e', h, h', hbelow, hp, hq⟩ :=
      below_of_lt (p := p) (q := q) (by omega) (by omega) (by omega) (by omega)
    change UnpackedFloat.compare (Float.ofNat p).toModel.unpack (Float.ofNat q).toModel.unpack = _ ∧
      UnpackedFloat.compare (Float.ofNat q).toModel.unpack (Float.ofNat p).toModel.unpack = _
    rw [hp, hq]
    exact ⟨congrArg some hbelow.compare_eq.1, congrArg some hbelow.compare_eq.2⟩

lemma compare_ofInt_self {x : ℤ} (hx : -2 ^ 64 < x) (hx' : x < 2 ^ 64) :
    (Float.ofInt x).toModel.unpack.compare (Float.ofInt x).toModel.unpack = some .eq := by
  have hself (m : ℕ) (e : ℤ) : (compare e e).then (compare m m) = .eq := by
    rw [compare_eq_iff_eq.2 rfl, compare_eq_iff_eq.2 rfl]
    rfl
  rcases lt_trichotomy x 0 with hneg | rfl | hpos
  · obtain ⟨m, e, h, hunpack⟩ := exists_unpack_of_neg hneg hx
    rw [hunpack]
    exact congrArg (fun o : Ordering => some o.swap) (hself m e)
  · rw [unpack_zero]
    rfl
  · obtain ⟨m, e, h, hunpack⟩ := exists_unpack_of_pos hpos hx'
    rw [hunpack]
    exact congrArg some (hself m e)

/-- Numbers that rounding to floats keeps apart. -/
def Apart (x y : Int64) : Prop :=
  x.toInt < y.toInt ∧ x.toInt < 2 ^ 53 ∧ -2 ^ 53 < y.toInt

variable {x y : Int64}

lemma compare_of_apart (h : Apart x y) :
    (ofWord x).toModel.unpack.compare (ofWord y).toModel.unpack = some .lt ∧
      (ofWord y).toModel.unpack.compare (ofWord x).toModel.unpack = some .gt := by
  have hx := x.le_toInt
  have hy := y.toInt_lt
  exact compare_ofInt h.1 h.2.1 h.2.2 (by omega) (by omega)

/-- Numbers that floats tell apart if they differ. -/
def Comparable (x y : Int64) : Prop := x.toInt = y.toInt ∨ Apart x y ∨ Apart y x

lemma Comparable.symm (h : Comparable x y) : Comparable y x := by
  rcases h with heq | hlt | hgt
  · exact .inl heq.symm
  · exact .inr (.inr hlt)
  · exact .inr (.inl hgt)

/-- What floats hold exactly they tell apart. -/
lemma comparable_of_abs_le (hx : |x.toInt| ≤ 2 ^ 53) (hy : |y.toInt| ≤ 2 ^ 53) :
    Comparable x y := by
  rw [abs_le] at hx hy
  unfold Comparable Apart
  omega

lemma comparable_zero : Comparable 0 x := by
  have hzero : (0 : Int64).toInt = 0 := rfl
  unfold Comparable Apart
  omega

lemma compare_ofWord (h : Comparable x y) :
    (ofWord x).toModel.unpack.compare (ofWord y).toModel.unpack =
      some (compare x.toInt y.toInt) := by
  rcases h with heq | hlt | hgt
  · have hx := x.le_toInt
    have hx' := x.toInt_lt
    rw [show ofWord y = ofWord x from congrArg Float.ofInt heq.symm, compare_eq_iff_eq.2 heq]
    exact compare_ofInt_self (by omega) (by omega)
  · rw [compare_lt_iff_lt.2 hlt.1]
    exact (compare_of_apart hlt).1
  · rw [compare_gt_iff_gt.2 hgt.1]
    exact (compare_of_apart hgt).2

/-- **Floats order whole numbers** that rounding keeps apart. -/
theorem ofWord_le_iff (h : Comparable x y) : ofWord x ≤ ofWord y ↔ x.toInt ≤ y.toInt := by
  have hle : ofWord x ≤ ofWord y ↔ ((ofWord x).toModel.unpack.compare
      (ofWord y).toModel.unpack).any Ordering.isLE = true := decide_eq_true_iff
  rw [hle, compare_ofWord h, Option.any_some, Int.isLE_compare]

theorem ofWord_lt_iff (h : Comparable x y) : ofWord x < ofWord y ↔ x.toInt < y.toInt := by
  have hlt : ofWord x < ofWord y ↔ ((ofWord x).toModel.unpack.compare
      (ofWord y).toModel.unpack == some .lt) = true := decide_eq_true_iff
  rw [hlt, compare_ofWord h, beq_iff_eq, Option.some_inj, compare_lt_iff_lt]

end Courseware.Number
