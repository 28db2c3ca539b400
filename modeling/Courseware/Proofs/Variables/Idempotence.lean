import Courseware.Proofs.Variables.Template

/-!
Filling in variables a second time.

Where no displayed value holds an asterisk, the asterisks of a filled text are literal ones. Two of
them may still come to stand around a known name, if a value was filled in between: `**X**` becomes
`*A*` where `X` is `A`. A second pass changes a filled text if and only if that has happened. With
the variables at hand it can happen if and only if some known name is made up of a text that is not
a known name, a displayed value, and any text.
-/

namespace Courseware.Template

open Text

variable {names : Set Text} {vars : Variables} {t a b w r : Text} {v : Value} {p : Template}

/-! ### Asterisks that are left -/

/-- Every field takes two asterisks out of the text. -/
lemma Cuts.count_asterisks (hplain : ∀ n v, vars.value? n = some v → '*' ∉ v.display)
    (h : p.Cuts vars.names t) :
    (vars.interpolate t).count '*' + 2 * p.fields.length = t.count '*' := by
  induction p generalizing t with
  | plain s =>
    obtain rfl : s = t := h.written_eq
    rw [interpolate_of_not_mentions h.leftmost]
    rfl
  | field b n p ih =>
    obtain ⟨rfl, hn, hb, hp⟩ := h.of_field
    obtain ⟨v, hv⟩ := hn.exists_value
    have hrest := ih hp
    have hname : n.count '*' = 0 := List.count_eq_zero_of_not_mem hn.no_asterisk
    have hvalue : v.display.count '*' = 0 := List.count_eq_zero_of_not_mem (hplain n v hv)
    rw [interpolate_field hb hn hv]
    simp only [List.count_append, List.count_cons_self, fields, List.length_cons]
    omega

lemma interpolate_eq_self_iff (hplain : ∀ n v, vars.value? n = some v → '*' ∉ v.display) :
    vars.interpolate t = t ↔ ¬Mentions vars.names t := by
  refine ⟨fun h => ?_, interpolate_of_not_mentions⟩
  obtain ⟨p, hp⟩ := exists_cuts vars.names t
  have hcount := hp.count_asterisks hplain
  rw [h] at hcount
  cases p with
  | plain s =>
    obtain rfl : s = t := hp.written_eq
    exact hp.leftmost
  | field b n p =>
    rw [fields, List.length_cons] at hcount
    omega

/-! ### Names around a value -/

lemma mentions_append_iff (hw : '*' ∉ w) : Mentions names (w ++ t) ↔ Mentions names t := by
  induction w with
  | nil => rfl
  | cons c w ih =>
    rw [List.mem_cons, not_or] at hw
    rw [List.cons_append, mentions_cons, ih hw.2]
    simp [Ne.symm hw.1]

/-- A name that is opened in front of `b` ends at an asterisk in `b` or goes on behind it. -/
lemma Opens.cases_append (h : Opens names (b ++ t)) :
    Opens names (b ++ ['*']) ∨ ∃ n r, t = n ++ '*' :: r ∧ Known names (b ++ n) := by
  obtain ⟨n, r, heq, hn⟩ := h
  rcases List.append_eq_append_iff.1 heq with ⟨s, rfl, rfl⟩ | ⟨s, rfl, hs⟩
  · exact .inr ⟨s, r, rfl, hn⟩
  · rcases List.cons_eq_append_iff.1 hs with ⟨rfl, rfl⟩ | ⟨s', rfl, -⟩
    · exact .inr ⟨[], r, rfl, by simpa using hn⟩
    · exact .inl ⟨n, s' ++ ['*'], by simp, hn⟩

/-- No mention comes about around the text `w`, if the known names that hold `w` are known up
to it. -/
lemma not_mentions_around {s : Text} (hb : ¬Mentions names (b ++ ['*'])) (hw : '*' ∉ w)
    (hknown : ∀ a r, Known names (a ++ (w ++ r)) → Known names a) (hs : ¬Mentions names s) :
    ¬Mentions names (b ++ (w ++ s)) := by
  induction b with
  | nil => rwa [List.nil_append, mentions_append_iff hw]
  | cons c b ih =>
    rw [List.cons_append, mentions_cons, not_or] at hb ⊢
    refine ⟨?_, ih hb.2⟩
    rintro ⟨rfl, hopens⟩
    refine hb.1 ⟨rfl, ?_⟩
    rcases hopens.cases_append with hopens | ⟨n, r, heq, hn⟩
    · exact hopens
    · -- the name goes on behind `b`, so it holds `w`
      rcases List.append_eq_append_iff.1 heq with ⟨s', rfl, -⟩ | ⟨s', rfl, hs'⟩
      · exact ⟨b, [], rfl, hknown b s' hn⟩
      · rcases List.cons_eq_append_iff.1 hs' with ⟨rfl, -⟩ | ⟨s'', rfl, -⟩
        · refine ⟨b, [], rfl, hknown b [] ?_⟩
          simpa using hn
        · exact absurd (by simp) hw

/-- Where a displayed value is a part of a known name, what stands before it there is a known name
too. -/
def Separate (vars : Variables) : Prop :=
  ∀ n v a r, Known vars.names n → vars.value? n = some v →
    Known vars.names (a ++ (v.display ++ r)) → Known vars.names a

lemma Cuts.not_mentions_interpolate (hplain : ∀ n v, vars.value? n = some v → '*' ∉ v.display)
    (hsep : Separate vars) (h : p.Cuts vars.names t) :
    ¬Mentions vars.names (vars.interpolate t) := by
  induction p generalizing t with
  | plain s =>
    obtain rfl : s = t := h.written_eq
    rw [interpolate_of_not_mentions h.leftmost]
    exact h.leftmost
  | field b n p ih =>
    obtain ⟨rfl, hn, hb, hp⟩ := h.of_field
    obtain ⟨v, hv⟩ := hn.exists_value
    rw [interpolate_field hb hn hv]
    exact not_mentions_around hb (hplain n v hv) (fun a r => hsep n v a r hn hv) (ih hp)

lemma not_mentions_single (ha : '*' ∉ a) : ¬Mentions names (a ++ ['*']) := by
  rw [mentions_append_iff ha, mentions_cons, not_or]
  refine ⟨?_, not_mentions_nil⟩
  rintro ⟨-, n, r, h, -⟩
  simp at h

/-- A text that is not known, a mention and another text, in asterisks. -/
lemma mentions_interpolate {n : Text} (hn : Known vars.names n) (hv : vars.value? n = some v)
    (hknown : Known vars.names (a ++ (v.display ++ r))) (ha : ¬Known vars.names a) :
    Mentions vars.names (vars.interpolate ('*' :: a ++ '*' :: (n ++ '*' :: (r ++ ['*'])))) := by
  have hplain : '*' ∉ a ∧ '*' ∉ v.display ∧ '*' ∉ r := by
    simpa [not_or] using hknown.no_asterisk
  have hfirst : ¬Mentions vars.names ('*' :: a ++ ['*']) := by
    rw [List.cons_append, mentions_cons, not_or]
    refine ⟨?_, not_mentions_single hplain.1⟩
    rintro ⟨-, m, d, h, hm⟩
    rcases cases_of_append_eq h hm.no_asterisk with ⟨rfl, -⟩ | ⟨s, rfl, -⟩
    · exact ha hm
    · exact hplain.1 (by simp)
  rw [interpolate_field hfirst hn hv, interpolate_of_not_mentions (not_mentions_single hplain.2.2)]
  exact ⟨[], _, [], by simp, hknown⟩

/-- **What a second pass changes.** Let no displayed value hold an asterisk. Then filling in the
variables of a filled text leaves it as it is if and only if no known name stands between two
consecutive asterisks of it. And this is so for every text if and only if the known names that hold
a displayed value are known up to it. -/
theorem interpolate_twice_iff (vars : Variables)
    (hplain : ∀ n v, vars.value? n = some v → '*' ∉ v.display) :
    (∀ t, vars.interpolate (vars.interpolate t) = vars.interpolate t ↔
        ¬Mentions vars.names (vars.interpolate t)) ∧
      ((∀ t, vars.interpolate (vars.interpolate t) = vars.interpolate t) ↔ Separate vars) := by
  refine ⟨fun t => interpolate_eq_self_iff hplain, fun h => ?_, fun hsep t => ?_⟩
  · intro n v a r hn hv hknown
    by_contra ha
    exact (interpolate_eq_self_iff hplain).1 (h _) (mentions_interpolate hn hv hknown ha)
  · obtain ⟨p, hp⟩ := exists_cuts vars.names t
    exact (interpolate_eq_self_iff hplain).2 (hp.not_mentions_interpolate hplain hsep)

/-- The one name `X` is not long enough to hold the value of `X`, so no text changes twice. -/
theorem interpolate_twice_iff_long_value :
    let vars := Variables.set {} "X".toList (.text "hello".toList)
    (∀ n v, vars.value? n = some v → '*' ∉ v.display) ∧ Separate vars ∧
      ∀ t, vars.interpolate (vars.interpolate t) = vars.interpolate t := by
  intro vars
  have hvalue : ∀ n v, vars.value? n = some v → v = .text "hello".toList := by
    intro n v hv
    rw [Variables.value?_set] at hv
    split at hv
    · exact (Option.some.inj hv).symm
    · cases hv
  have hplain : ∀ n v, vars.value? n = some v → '*' ∉ v.display := by
    intro n v hv
    rw [hvalue n v hv]
    decide
  have hsep : Separate vars := by
    intro n v a r _ hv hknown
    have hmem : canonical (a ++ (v.display ++ r)) ∈ vars.keys := hknown.mem
    rw [canonical, hknown.trim_eq, hvalue n v hv] at hmem
    have hlen : (upper (a ++ ("hello".toList ++ r))).length = 1 :=
      congrArg List.length (List.mem_singleton.1 hmem)
    simp only [upper, List.length_map, List.length_append] at hlen
    have hhello : "hello".toList.length = 5 := rfl
    omega
  exact ⟨hplain, hsep, (interpolate_twice_iff vars hplain).2.2 hsep⟩

/-- The asterisks that `**X**` keeps come to stand around the value of `X`, itself a known name. -/
theorem interpolate_twice_changes :
    let vars := (Variables.set {} "A".toList (.text "1".toList)).set "X".toList (.text "A".toList)
    (∀ n v, vars.value? n = some v → '*' ∉ v.display) ∧
      vars.interpolate "**X**".toList = "*A*".toList ∧
      vars.interpolate (vars.interpolate "**X**".toList) = "1".toList := by
  intro vars
  have hplain : ∀ n v, vars.value? n = some v → '*' ∉ v.display := by
    intro n v hv
    rw [Variables.value?_set, Variables.value?_set] at hv
    split at hv
    · rw [← Option.some.inj hv]
      decide
    · split at hv
      · rw [← Option.some.inj hv]
        decide
      · cases hv
  have hfirst :
      (field "*".toList "X".toList (plain "*".toList)).Cuts vars.names "**X**".toList := by decide
  have hsecond : (field [] "A".toList (plain [])).Cuts vars.names "*A*".toList := by decide
  have honce : vars.interpolate "**X**".toList = "*A*".toList :=
    (Option.some.inj hfirst.fill?_eq).symm
  refine ⟨hplain, honce, ?_⟩
  rw [honce]
  exact (Option.some.inj hsecond.fill?_eq).symm

end Courseware.Template
