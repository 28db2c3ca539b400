import Courseware.Proofs.Text.Names
import Courseware.Variables
import Mathlib.Data.List.Infix
import Mathlib.Data.Set.Operations

/-!
Filling in the variables of a text is filling in a template.

The template is found from the names of the variables alone. The first known name that stands
between two consecutive asterisks is its first field, what precedes it is literal, and the rest of
the text is cut up in the same way. An asterisk that opens no known name is literal and may be
followed at once by the asterisk of a field. The values come in only when the fields are filled.
-/

namespace Courseware

open Text

/-- The names of the variables. -/
def Variables.names (vars : Variables) : Set Text := {k | k ∈ vars.keys}

/-- A text that is literal, or that is so up to a name between asterisks. -/
inductive Template where
  | plain (t : Text)
  | field (before name : Text) (rest : Template)

namespace Template

/-- A name of a variable in a form in which it can be mentioned. -/
structure Known (names : Set Text) (n : Text) : Prop where
  ne_nil : n ≠ []
  trim_eq : trim n = n
  no_asterisk : '*' ∉ n
  mem : canonical n ∈ names

/-- A known name ends at the next asterisk. -/
def Opens (names : Set Text) (t : Text) : Prop := ∃ n r, t = n ++ '*' :: r ∧ Known names n

/-- A known name stands between two consecutive asterisks. -/
def Mentions (names : Set Text) (t : Text) : Prop :=
  ∃ b n r, t = b ++ '*' :: (n ++ '*' :: r) ∧ Known names n

/-- The text that a template is made from. -/
def written : Template → Text
  | plain t => t
  | field b n p => b ++ '*' :: (n ++ '*' :: p.written)

/-- The names of the fields, as they are written. -/
def fields : Template → List Text
  | plain _ => []
  | field _ n p => n :: p.fields

/-- Puts the displayed value of its variable into each field. -/
def fill? (vars : Variables) : Template → Option Text
  | plain t => some t
  | field b n p => do
    let v ← vars.value? n
    let s ← p.fill? vars
    return b ++ (v.display ++ s)

/-- No known name stands between asterisks before a field, its first asterisk included, nor behind
the last field. -/
def Leftmost (names : Set Text) : Template → Prop
  | plain t => ¬Mentions names t
  | field b _ p => ¬Mentions names (b ++ ['*']) ∧ p.Leftmost names

/-- The template cuts a text up at known names, each as far to the left as it can be. -/
structure Cuts (names : Set Text) (t : Text) (p : Template) : Prop where
  written_eq : p.written = t
  known : ∀ n ∈ p.fields, Known names n
  leftmost : p.Leftmost names

variable {names : Set Text} {vars : Variables} {t b n r : Text} {v : Value} {p q : Template}

/-! ### Mentions -/

lemma not_mentions_nil : ¬Mentions names [] := by
  rintro ⟨b, n, r, h, -⟩
  simp at h

lemma mentions_cons {c : Char} :
    Mentions names (c :: t) ↔ (c = '*' ∧ Opens names t) ∨ Mentions names t := by
  constructor
  · rintro ⟨b, n, r, h, hn⟩
    rcases List.cons_eq_append_iff.1 h with ⟨rfl, h⟩ | ⟨b', rfl, rfl⟩
    · obtain ⟨rfl, rfl⟩ := List.cons.inj h
      exact .inl ⟨rfl, n, r, rfl, hn⟩
    · exact .inr ⟨b', n, r, rfl, hn⟩
  · rintro (⟨rfl, n, r, rfl, hn⟩ | ⟨b, n, r, rfl, hn⟩)
    · exact ⟨[], n, r, rfl, hn⟩
    · exact ⟨c :: b, n, r, rfl, hn⟩

lemma opens_iff : Opens names t ↔ ∃ n r, cut? '*' t = some (n, r) ∧ Known names n := by
  constructor
  · rintro ⟨n, r, rfl, hn⟩
    exact ⟨n, r, cut?_append hn.no_asterisk r, hn⟩
  · rintro ⟨n, r, hcut, hn⟩
    exact ⟨n, r, eq_of_cut? hcut, hn⟩

/-- Where a text with an asterisk in it is cut at its first asterisk. -/
lemma cases_of_append_eq {d : Text} (h : b ++ '*' :: r = n ++ '*' :: d) (hn : '*' ∉ n) :
    (b = n ∧ r = d) ∨ ∃ s, b = n ++ '*' :: s ∧ d = s ++ '*' :: r := by
  rcases List.append_eq_append_iff.1 h with ⟨s, rfl, hs⟩ | ⟨s, rfl, hs⟩
  · rcases List.cons_eq_append_iff.1 hs with ⟨rfl, hd⟩ | ⟨s', rfl, -⟩
    · exact .inl ⟨(List.append_nil b).symm, (List.cons.inj hd).2.symm⟩
    · exact absurd (by simp) hn
  · rcases List.cons_eq_append_iff.1 hs with ⟨rfl, hd⟩ | ⟨s', rfl, rfl⟩
    · exact .inl ⟨List.append_nil n, (List.cons.inj hd).2⟩
    · exact .inr ⟨s', rfl, rfl⟩

/-- Only what stands up to the next asterisk matters. -/
lemma Opens.change_rest (h : Opens names (b ++ '*' :: r)) (r' : Text) :
    Opens names (b ++ '*' :: r') := by
  obtain ⟨n, d, heq, hn⟩ := h
  rcases cases_of_append_eq heq hn.no_asterisk with ⟨rfl, -⟩ | ⟨s, rfl, -⟩
  · exact ⟨b, r', rfl, hn⟩
  · exact ⟨n, s ++ '*' :: r', by simp, hn⟩

/-- A text with a mention has a first one. -/
lemma exists_first (h : Mentions names t) :
    ∃ b n r, t = b ++ '*' :: (n ++ '*' :: r) ∧ Known names n ∧ ¬Mentions names (b ++ ['*']) := by
  induction t with
  | nil => exact absurd h not_mentions_nil
  | cons c t ih =>
    by_cases hopen : c = '*' ∧ Opens names t
    · obtain ⟨rfl, n, r, rfl, hn⟩ := hopen
      refine ⟨[], n, r, rfl, hn, fun hm => ?_⟩
      rcases mentions_cons.1 hm with ⟨-, n, r, h, -⟩ | hnil
      · simp at h
      · exact not_mentions_nil hnil
    · obtain ⟨b, n, r, rfl, hn, hb⟩ := ih ((mentions_cons.1 h).resolve_left hopen)
      refine ⟨c :: b, n, r, rfl, hn, fun hm => ?_⟩
      rcases mentions_cons.1 hm with ⟨rfl, hopens⟩ | hm
      · exact hopen ⟨rfl, hopens.change_rest _⟩
      · exact hb hm

/-- A mention does not begin before the first one. -/
lemma prefix_of_first {b' r' : Text} (h : b ++ '*' :: (n ++ '*' :: r) = b' ++ '*' :: r')
    (hn : Known names n) (hb' : ¬Mentions names (b' ++ ['*'])) : b' <+: b := by
  rcases List.append_eq_append_iff.1 h with ⟨s, rfl, hs⟩ | ⟨s, rfl, -⟩
  · rcases List.cons_eq_append_iff.1 hs with ⟨rfl, -⟩ | ⟨s', rfl, hs'⟩
    · rw [List.append_nil]
    · -- the mention would end inside of `b'`, or at the asterisk behind it
      have hopens : Opens names (s' ++ '*' :: r') := ⟨n, r, hs'.symm, hn⟩
      obtain ⟨m, d, hd, hm⟩ := hopens.change_rest []
      refine absurd ⟨b, m, d, ?_, hm⟩ hb'
      rw [List.append_assoc, List.cons_append, hd]
  · exact List.prefix_append b' s

lemma first_unique {b' n' r' : Text}
    (h : b ++ '*' :: (n ++ '*' :: r) = b' ++ '*' :: (n' ++ '*' :: r'))
    (hn : Known names n) (hn' : Known names n') (hb : ¬Mentions names (b ++ ['*']))
    (hb' : ¬Mentions names (b' ++ ['*'])) : b = b' ∧ n = n' ∧ r = r' := by
  have hle : b' <+: b := prefix_of_first h hn hb'
  have hge : b <+: b' := prefix_of_first h.symm hn' hb
  obtain rfl : b = b' := hge.eq_of_length_le hle.length_le
  refine ⟨rfl, ?_⟩
  have hrest := (List.cons.inj (List.append_cancel_left h)).2
  rcases cases_of_append_eq hrest hn'.no_asterisk with ⟨rfl, rfl⟩ | ⟨s, rfl, -⟩
  · exact ⟨rfl, rfl⟩
  · exact absurd (by simp) hn.no_asterisk

lemma exists_cuts (names : Set Text) (t : Text) : ∃ p : Template, p.Cuts names t := by
  induction hlen : t.length using Nat.strong_induction_on generalizing t with
  | _ k ih =>
    by_cases h : Mentions names t
    · obtain ⟨b, n, r, rfl, hn, hb⟩ := exists_first h
      have hlt : r.length < k := by
        simp only [List.length_append, List.length_cons] at hlen
        omega
      obtain ⟨p, hp⟩ := ih r.length hlt r rfl
      refine ⟨field b n p, ?_, ?_, hb, hp.leftmost⟩
      · rw [written, hp.written_eq]
      · exact List.forall_mem_cons.2 ⟨hn, hp.known⟩
    · exact ⟨plain t, rfl, fun n hn => absurd hn List.not_mem_nil, h⟩

lemma Cuts.of_field (h : (field b n p).Cuts names t) :
    t = b ++ '*' :: (n ++ '*' :: p.written) ∧ Known names n ∧ ¬Mentions names (b ++ ['*']) ∧
      p.Cuts names p.written :=
  ⟨h.written_eq.symm, h.known n List.mem_cons_self, h.leftmost.1, rfl,
    fun m hm => h.known m (List.mem_cons_of_mem n hm), h.leftmost.2⟩

/-- A text has one template. -/
lemma Cuts.unique (hp : p.Cuts names t) (hq : q.Cuts names t) : p = q := by
  induction p generalizing q t with
  | plain s =>
    obtain rfl : s = t := hp.written_eq
    cases q with
    | plain s' => rw [show s' = s from hq.written_eq]
    | field b n q =>
      obtain ⟨heq, hn, -⟩ := hq.of_field
      exact absurd ⟨b, n, q.written, heq, hn⟩ hp.leftmost
  | field b n p ih =>
    obtain ⟨rfl, hn, hb, hp⟩ := hp.of_field
    cases q with
    | plain s => exact absurd ⟨b, n, p.written, hq.written_eq, hn⟩ hq.leftmost
    | field b' n' q =>
      obtain ⟨heq, hn', hb', hrest⟩ := hq.of_field
      -- both take the leftmost field
      obtain ⟨rfl, rfl, hwritten⟩ := first_unique heq hn hn' hb hb'
      rw [← hwritten] at hrest
      rw [ih hp hrest]

/-! ### Deciding about mentions -/

section Decide

variable [DecidablePred (· ∈ names)]

instance : DecidablePred (Known names) := fun n =>
  decidable_of_iff (n ≠ [] ∧ trim n = n ∧ '*' ∉ n ∧ canonical n ∈ names)
    ⟨fun ⟨hne, htrim, hplain, hmem⟩ => ⟨hne, htrim, hplain, hmem⟩,
      fun h => ⟨h.ne_nil, h.trim_eq, h.no_asterisk, h.mem⟩⟩

instance : DecidablePred (Opens names) := fun t =>
  decidable_of_iff ((cut? '*' t).any fun x => decide (Known names x.1)) <| by
    rw [opens_iff, Option.any_eq_true]
    simp

instance decidableMentions : DecidablePred (Mentions names)
  | [] => .isFalse not_mentions_nil
  | c :: t =>
    have := decidableMentions t
    decidable_of_iff _ (mentions_cons (c := c) (t := t)).symm

instance decidableLeftmost : DecidablePred (Leftmost names)
  | plain t => inferInstanceAs (Decidable ¬Mentions names t)
  | field b _ p =>
    have := decidableLeftmost p
    inferInstanceAs (Decidable (¬Mentions names (b ++ ['*']) ∧ p.Leftmost names))

instance : DecidablePred (Cuts names t) := fun p =>
  decidable_of_iff (p.written = t ∧ (∀ n ∈ p.fields, Known names n) ∧ p.Leftmost names)
    ⟨fun ⟨hwritten, hknown, hleft⟩ => ⟨hwritten, hknown, hleft⟩,
      fun h => ⟨h.written_eq, h.known, h.leftmost⟩⟩

end Decide

instance : DecidablePred (· ∈ vars.names) := fun k => inferInstanceAs (Decidable (k ∈ vars.keys))

/-! ### Filling in -/

lemma mem_names {k : Text} : k ∈ vars.names ↔ (vars.get? k).isSome = true := by
  unfold Variables.names Table.keys Table.get?
  rw [Set.mem_ofPred_eq, List.mem_map, List.lookup_isSome_iff]
  refine exists_congr fun e => and_congr_right fun _ => ?_
  rw [beq_iff_eq, eq_comm]

lemma Known.exists_value (hn : Known vars.names n) : ∃ v, vars.value? n = some v :=
  Option.isSome_iff_exists.1 (mem_names.1 hn.mem)

lemma occurrence?_eq_some (hn : Known vars.names n) (hv : vars.value? n = some v) :
    vars.occurrence? (n ++ '*' :: r) = some (v, r) := by
  unfold Variables.occurrence?
  rw [cut?_append hn.no_asterisk]
  dsimp only
  rw [if_pos ⟨hn.ne_nil, hn.trim_eq⟩, hv, Option.map_some]

lemma occurrence?_eq_none (h : ¬Opens vars.names t) : vars.occurrence? t = none := by
  unfold Variables.occurrence?
  split
  · rfl
  · next n r hcut =>
    rw [ite_eq_right_iff]
    rintro ⟨hne, htrim⟩
    rw [Option.map_eq_none_iff]
    by_contra hv
    have hmem : canonical n ∈ vars.names := mem_names.2 (Option.isSome_iff_ne_none.2 hv)
    exact h ⟨n, r, eq_of_cut? hcut, hne, htrim, not_mem_of_cut? hcut, hmem⟩

/-- A character that opens no mention is kept. -/
lemma interpolate_cons {c : Char} (h : ¬(c = '*' ∧ Opens vars.names t)) :
    vars.interpolate (c :: t) = c :: vars.interpolate t := by
  rw [Variables.interpolate]
  split
  · next hc => rw [occurrence?_eq_none fun ho => h ⟨hc, ho⟩]
  · rfl

lemma interpolate_of_not_mentions (h : ¬Mentions vars.names t) : vars.interpolate t = t := by
  induction t with
  | nil => rw [Variables.interpolate]
  | cons c t ih =>
    rw [mentions_cons, not_or] at h
    rw [interpolate_cons h.1, ih h.2]

/-- The first mention is filled in, and what follows it is treated as a text of its own. -/
lemma interpolate_field (hb : ¬Mentions vars.names (b ++ ['*'])) (hn : Known vars.names n)
    (hv : vars.value? n = some v) :
    vars.interpolate (b ++ '*' :: (n ++ '*' :: r)) = b ++ (v.display ++ vars.interpolate r) := by
  induction b with
  | nil =>
    rw [List.nil_append, Variables.interpolate, if_pos rfl, occurrence?_eq_some hn hv]
    rfl
  | cons c b ih =>
    rw [List.cons_append, mentions_cons, not_or] at hb
    have hkept : ¬(c = '*' ∧ Opens vars.names (b ++ '*' :: (n ++ '*' :: r))) :=
      fun ho => hb.1 ⟨ho.1, ho.2.change_rest []⟩
    rw [List.cons_append, interpolate_cons hkept, ih hb.2, List.cons_append]

lemma Cuts.fill?_eq (h : p.Cuts vars.names t) : p.fill? vars = some (vars.interpolate t) := by
  induction p generalizing t with
  | plain s =>
    obtain rfl : s = t := h.written_eq
    rw [fill?, interpolate_of_not_mentions h.leftmost]
  | field b n p ih =>
    obtain ⟨rfl, hn, hb, hp⟩ := h.of_field
    obtain ⟨v, hv⟩ := hn.exists_value
    rw [fill?, hv, ih hp, interpolate_field hb hn hv]
    rfl

/-- **Filling in variables is filling in a template.** For every text and every set of names there
is one template that is written as the text, has known names as its fields, and has each of them as
far to the left as can be. Whatever values the variables with these names have, filling in the
variables of the text is putting the displayed values into the fields. So a text without a known
name between two consecutive asterisks stays as it is. -/
theorem interpolate_fills_template (t : Text) (names : Set Text) :
    ∃ p : Template, p.Cuts names t ∧ (∀ q : Template, q.Cuts names t → q = p) ∧
      ∀ vars : Variables, vars.names = names →
        p.fill? vars = some (vars.interpolate t) ∧
          (¬Mentions names t → vars.interpolate t = t) := by
  obtain ⟨p, hp⟩ := exists_cuts names t
  refine ⟨p, hp, fun q hq => hq.unique hp, ?_⟩
  rintro vars rfl
  exact ⟨hp.fill?_eq, interpolate_of_not_mentions⟩

/-- An asterisk before the asterisk of a field, a name with a blank behind it, a name in small
letters, and a value that looks like a field itself. -/
theorem interpolate_fills_template_asterisks :
    let vars := (Variables.set {} "X".toList (.text "*Y*".toList)).set "Y".toList (.integer 5)
    let p := field "*".toList "x".toList (field " *Y ".toList "X".toList (plain []))
    p.Cuts vars.names "**x* *Y *X*".toList ∧
      vars.interpolate "**x* *Y *X*".toList = "**Y* *Y *Y*".toList ∧
      ¬Mentions vars.names "5 * X *".toList ∧
      vars.interpolate "5 * X *".toList = "5 * X *".toList := by
  intro vars p
  have hcuts : p.Cuts vars.names "**x* *Y *X*".toList := by decide
  have hplain : ¬Mentions vars.names "5 * X *".toList := by decide
  obtain ⟨q, -, hunique, hfill⟩ := interpolate_fills_template "**x* *Y *X*".toList vars.names
  obtain ⟨_, -, -, hsame⟩ := interpolate_fills_template "5 * X *".toList vars.names
  have hfilled : p.fill? vars = some (vars.interpolate "**x* *Y *X*".toList) := by
    rw [hunique p hcuts]
    exact (hfill vars rfl).1
  exact ⟨hcuts, (Option.some.inj hfilled).symm, hplain, (hsame vars rfl).2 hplain⟩

end Template

end Courseware
