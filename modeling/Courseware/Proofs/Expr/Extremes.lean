import Courseware.Expr.Builtin
import Courseware.Proofs.Number.WordOrder
import Courseware.Table

/-!
The greatest and the least of numbers, some of which are given as texts.

`MAX` and `MIN` go through their arguments and keep the best so far. Each argument must read as a
number, but two texts are compared as texts. So the best is the best by number as long as the texts
are ordered as the numbers are that they stand for, and only then.
-/

namespace Courseware

open Number

/-! ### Orders -/

namespace Number

variable {x y : Int64}

theorem ofWord_beq_iff (h : Comparable x y) :
    (ofWord x == ofWord y) = true ↔ x.toInt = y.toInt := by
  have hbeq : (ofWord x == ofWord y) = ((ofWord x).toModel.unpack.compare
      (ofWord y).toModel.unpack == some .eq) := rfl
  rw [hbeq, compare_ofWord h, beq_iff_eq, Option.some_inj, compare_eq_iff_eq]

end Number

namespace Text

lemma swap_order (s t : Text) : (order s t).swap = order t s := by
  fun_induction order s t with
  | case1 => rfl
  | case2 => rfl
  | case3 => rfl
  | case4 c s d t hlt => rw [order, if_neg (by omega), if_pos hlt]; rfl
  | case5 c s d t hlt hgt => rw [order, if_pos hgt]; rfl
  | case6 c s d t hlt hgt ih => rw [order, if_neg hgt, if_neg hlt, ih]

lemma order_eq_gt_iff {s t : Text} : order t s = .gt ↔ order s t = .lt := by
  rw [← swap_order s t, Ordering.swap_eq_gt]

end Text

lemma Expr.floatOrder?_ofWord {x y : Int64} (h : Comparable x y) :
    floatOrder? (ofWord x) (ofWord y) = some (Ord.compare x.toInt y.toInt) := by
  unfold floatOrder?
  rcases lt_trichotomy x.toInt y.toInt with hlt | heq | hgt
  · rw [if_pos ((ofWord_lt_iff h).2 hlt), compare_lt_iff_lt.2 hlt]
  · rw [if_neg (mt (ofWord_lt_iff h).1 (by omega)), if_pos ((ofWord_beq_iff h).2 heq),
      compare_eq_iff_eq.2 heq]
  · rw [if_neg (mt (ofWord_lt_iff h).1 (by omega)), if_neg (mt (ofWord_beq_iff h).1 (by omega)),
      if_pos ((ofWord_lt_iff h.symm).2 hgt), compare_gt_iff_gt.2 hgt]

/-! ### Values that stand for whole numbers -/

namespace Value

/-- A whole number that floats hold exactly, or a text that reads as one. -/
def Exact (v : Value) : Prop :=
  ∃ n : Int64, v.toNumber? = some (.integer n) ∧ |n.toInt| ≤ 2 ^ 53

/-- The whole number that a value stands for. -/
def amount (v : Value) : Int :=
  match v.toNumber? with
  | some (.integer n) => n.toInt
  | _ => 0

/-- How values are compared that stand for whole numbers: by number, but two texts as texts. -/
def order : Value → Value → Ordering
  | .text s, .text t => Text.order s t
  | v, w => Ord.compare v.amount w.amount

variable {v w : Value} {n : Int64}

@[simp] lemma order_text (s t : Text) : (Value.text s).order (.text t) = Text.order s t := rfl

lemma amount_eq (h : v.toNumber? = some (.integer n)) : v.amount = n.toInt := by
  rw [amount, h]

lemma toFloat?_eq (h : v.toNumber? = some (.integer n)) : v.toFloat? = some (ofWord n) := by
  cases v with
  | integer k =>
    cases h
    rfl
  | float x => cases h
  | text t =>
    have hread : readNumber? t = some (.integer n) := h
    rw [toFloat?, hread]

lemma compare_eq (hv : v.Exact) (hw : w.Exact) : Expr.compare v w = .ok (v.order w) := by
  obtain ⟨n, hn, hn'⟩ := hv
  obtain ⟨k, hk, hk'⟩ := hw
  have hcompare := Expr.floatOrder?_ofWord (comparable_of_abs_le hn' hk')
  rw [← amount_eq hn, ← amount_eq hk] at hcompare
  have hv := toFloat?_eq hn
  have hw := toFloat?_eq hk
  cases v with
  | float x => cases hn
  | integer a =>
    cases w with
    | float x => cases hk
    | integer b => rfl
    | text t => simp only [Expr.compare, hv, hw, hcompare, order]
  | text s =>
    cases w with
    | float x => cases hk
    | integer b => simp only [Expr.compare, hv, hw, hcompare, order]
    | text t => rfl

end Value

/-! ### The best argument -/

namespace Expr

/-- What stays when `v` is compared with the best so far. -/
def pick (keep : Ordering) (best v : Value) : Value := if v.order best = keep then v else best

variable {keep : Ordering} {f name : Text} {v w best : Value} {vs args : List Value}

lemma pick_eq_or (keep : Ordering) (best v : Value) :
    pick keep best v = best ∨ pick keep best v = v := by
  unfold pick
  split
  · exact .inr rfl
  · exact .inl rfl

lemma floatArg_of_exact (hv : v.Exact) : ∃ x, Builtin.floatArg f v = .ok x := by
  obtain ⟨n, hn, -⟩ := hv
  exact ⟨ofWord n, by rw [Builtin.floatArg, Value.toFloat?_eq hn]⟩

lemma better_of_exact (hbest : best.Exact) (hv : v.Exact) :
    Builtin.better keep f best v = .ok (pick keep best v) := by
  obtain ⟨x, hx⟩ := floatArg_of_exact (f := f) hv
  unfold Builtin.better
  rw [hx, Value.compare_eq hv hbest]
  rfl

lemma foldlM_better (hbest : best.Exact) (hvs : ∀ v ∈ vs, v.Exact) :
    vs.foldlM (Builtin.better keep f) best = .ok (vs.foldl (pick keep) best) := by
  induction vs generalizing best with
  | nil => rfl
  | cons v vs ih =>
    have hv := hvs v List.mem_cons_self
    have hpick : (pick keep best v).Exact := by
      rcases pick_eq_or keep best v with h | h <;> rw [h] <;> assumption
    rw [List.foldlM_cons, better_of_exact hbest hv]
    exact ih hpick fun w hw => hvs w (List.mem_cons_of_mem v hw)

lemma extreme_of_exact (h : ∀ w ∈ v :: vs, w.Exact) :
    Builtin.extreme keep f (v :: vs) = .ok (vs.foldl (pick keep) v) := by
  have hv := h v List.mem_cons_self
  obtain ⟨x, hx⟩ := floatArg_of_exact (f := f) hv
  rw [Builtin.extreme, hx]
  exact foldlM_better hv fun w hw => h w (List.mem_cons_of_mem v hw)

lemma foldl_pick_mem (keep : Ordering) (v : Value) (vs : List Value) :
    vs.foldl (pick keep) v ∈ v :: vs := by
  induction vs generalizing v with
  | nil => exact List.mem_cons_self
  | cons w vs ih =>
    rw [List.foldl_cons]
    rcases pick_eq_or keep v w with h | h <;> rw [h]
    · exact List.cons_subset_cons v (List.subset_cons_self w vs) (ih v)
    · exact List.mem_cons_of_mem v (ih w)

/-- The best is at least as good as every argument, if that is what comparing says of any two. -/
lemma rank_le_foldl_pick {rank : Value → Int}
    (h : ∀ a ∈ v :: vs, ∀ b ∈ v :: vs,
      (a.order b = keep → rank b ≤ rank a) ∧ (a.order b ≠ keep → rank a ≤ rank b)) :
    ∀ w ∈ v :: vs, rank w ≤ rank (vs.foldl (pick keep) v) := by
  induction vs generalizing v with
  | nil =>
    intro w hw
    rw [List.mem_singleton.1 hw]
    exact le_refl _
  | cons u vs ih =>
    have hpick : pick keep v u ∈ v :: u :: vs := by
      rcases pick_eq_or keep v u with hp | hp <;> simp [hp]
    -- the better of the first two stands for both
    have hbest : rank v ≤ rank (pick keep v u) ∧ rank u ≤ rank (pick keep v u) := by
      obtain ⟨hbeats, hloses⟩ := h u (by simp) v (by simp)
      unfold pick
      split
      · next hu => exact ⟨hbeats hu, le_refl _⟩
      · next hu => exact ⟨le_refl _, hloses hu⟩
    have hsub : pick keep v u :: vs ⊆ v :: u :: vs :=
      List.cons_subset.2 ⟨hpick, fun w hw => by simp [hw]⟩
    have hrest := ih (v := pick keep v u) fun a ha b hb => h a (hsub ha) b (hsub hb)
    intro w hw
    rw [List.foldl_cons]
    rcases List.mem_cons.1 hw with rfl | hw
    · exact hbest.1.trans (hrest _ List.mem_cons_self)
    rcases List.mem_cons.1 hw with rfl | hw
    · exact hbest.2.trans (hrest _ List.mem_cons_self)
    · exact hrest w (List.mem_cons_of_mem _ hw)

/-! ### Texts among the arguments -/

/-- No text among the arguments comes before another and stands for a greater number. -/
def TextsAgree (args : List Value) : Prop :=
  ∀ s t, .text s ∈ args → .text t ∈ args → Text.order s t = .lt →
    (Value.text s).amount ≤ (Value.text t).amount

lemma TextsAgree.subset {l : List Value} (h : TextsAgree args) (hl : l ⊆ args) : TextsAgree l :=
  fun s t hs ht => h s t (hl hs) (hl ht)

/-- The order of arguments is that of their numbers. -/
lemma TextsAgree.amount_le (h : TextsAgree args) (hv : v ∈ args) (hw : w ∈ args) :
    (v.order w ≠ .gt → v.amount ≤ w.amount) ∧ (v.order w ≠ .lt → w.amount ≤ v.amount) := by
  have hnumbers : v.order w = Ord.compare v.amount w.amount →
      (v.order w ≠ .gt → v.amount ≤ w.amount) ∧ (v.order w ≠ .lt → w.amount ≤ v.amount) := by
    intro ho
    rw [ho]
    exact ⟨fun hgt => not_lt.1 (mt compare_gt_iff_gt.2 hgt),
      fun hlt => not_lt.1 (mt compare_lt_iff_lt.2 hlt)⟩
  cases v with
  | integer a => exact hnumbers rfl
  | float x => exact hnumbers rfl
  | text s =>
    cases w with
    | integer b => exact hnumbers rfl
    | float y => exact hnumbers rfl
    | text t =>
      -- two texts are compared as texts, which is where the hypothesis is needed
      rw [Value.order_text]
      cases ho : Text.order s t with
      | lt => exact ⟨fun _ => h s t hv hw ho, fun hlt => absurd rfl hlt⟩
      | gt => exact ⟨fun hgt => absurd rfl hgt, fun _ => h t s hw hv (Text.order_eq_gt_iff.1 ho)⟩
      | eq =>
        rw [Text.order_eq_iff.1 ho]
        exact ⟨fun _ => le_refl _, fun _ => le_refl _⟩

/-- The function gives one of the arguments, and its number is last of all in the order `le`. -/
def Picks (name : Text) (le : Int → Int → Prop) (args : List Value) : Prop :=
  ∀ g, ∃ v ∈ args, callFunction name args g = .ok v g ∧ ∀ w ∈ args, le w.amount v.amount

lemma call_max (args : List Value) :
    callFunction "MAX".toList args = lift (Builtin.extreme .gt "MAX".toList args) := rfl

lemma call_min (args : List Value) :
    callFunction "MIN".toList args = lift (Builtin.extreme .lt "MIN".toList args) := rfl

/-- What a function that keeps the best gives for arguments that stand for whole numbers. -/
lemma call_of_exact (hname : ∀ args, callFunction name args = lift (Builtin.extreme keep name args))
    (h : ∀ w ∈ v :: vs, w.Exact) (g : Generator) :
    callFunction name (v :: vs) g = .ok (vs.foldl (pick keep) v) g := by
  rw [hname, extreme_of_exact h]
  rfl

/-- A function that keeps the best gives the one of highest rank, if comparing goes by rank. -/
lemma picks_of_rank (rank : Value → Int) {le : Int → Int → Prop}
    (hname : ∀ args, callFunction name args = lift (Builtin.extreme keep name args))
    (hle : ∀ v w : Value, rank w ≤ rank v → le w.amount v.amount) (hne : args ≠ [])
    (hexact : ∀ v ∈ args, v.Exact)
    (h : ∀ a ∈ args, ∀ b ∈ args,
      (a.order b = keep → rank b ≤ rank a) ∧ (a.order b ≠ keep → rank a ≤ rank b)) :
    Picks name le args := by
  intro g
  cases args with
  | nil => exact absurd rfl hne
  | cons v vs =>
    exact ⟨_, foldl_pick_mem keep v vs, call_of_exact hname hexact g, fun w hw =>
      hle _ w (rank_le_foldl_pick h w hw)⟩

lemma TextsAgree.picks_max (h : TextsAgree args) (hne : args ≠ []) (hexact : ∀ v ∈ args, v.Exact) :
    Picks "MAX".toList (· ≤ ·) args := by
  refine picks_of_rank Value.amount call_max (fun _ _ h => h) hne hexact ?_
  intro a ha b hb
  obtain ⟨hgt, hlt⟩ := h.amount_le ha hb
  exact ⟨fun ho => hlt (by simp [ho]), hgt⟩

lemma TextsAgree.picks_min (h : TextsAgree args) (hne : args ≠ []) (hexact : ∀ v ∈ args, v.Exact) :
    Picks "MIN".toList (· ≥ ·) args := by
  refine picks_of_rank (fun v => -v.amount) call_min (fun _ _ h => by omega) hne hexact ?_
  intro a ha b hb
  obtain ⟨hgt, hlt⟩ := h.amount_le ha hb
  exact ⟨fun ho => neg_le_neg (hgt (by simp [ho])), fun ho => neg_le_neg (hlt ho)⟩

/-- What is picked of two arguments. -/
lemma Picks.of_pair {le : Int → Int → Prop} (h : Picks name le [v, w])
    (hname : ∀ args, callFunction name args = lift (Builtin.extreme keep name args))
    (hexact : ∀ u ∈ [v, w], u.Exact) : ∀ u ∈ [v, w], le u.amount (pick keep v w).amount := by
  obtain ⟨x, -, hx, hle⟩ := h default
  rw [call_of_exact hname hexact, List.foldl_cons, List.foldl_nil] at hx
  cases hx
  exact hle

/-- **`MAX` and `MIN` always give one of their arguments. They pick the numeric extreme of every
choice of the arguments if and only if the texts among them are ordered as their numbers are.** -/
theorem picks_extremes_iff_texts_agree (hargs : ∀ v ∈ args, v.Exact) :
    (∀ l ≠ [], l ⊆ args → ∀ g, (∃ v ∈ l, callFunction "MAX".toList l g = .ok v g) ∧
      ∃ v ∈ l, callFunction "MIN".toList l g = .ok v g) ∧
    ((∀ l ≠ [], l ⊆ args → Picks "MAX".toList (· ≤ ·) l) ↔ TextsAgree args) ∧
    ((∀ l ≠ [], l ⊆ args → Picks "MIN".toList (· ≥ ·) l) ↔ TextsAgree args) := by
  have hexact : ∀ {l}, l ⊆ args → ∀ v ∈ l, v.Exact := fun hl v hv => hargs v (hl hv)
  have hpair : ∀ {s t}, .text s ∈ args → .text t ∈ args → [Value.text s, .text t] ⊆ args :=
    fun hs ht => List.cons_subset.2 ⟨hs, List.cons_subset.2 ⟨ht, List.nil_subset _⟩⟩
  refine ⟨fun l hne hl g => ?_, ⟨fun h s t hs ht ho => ?_, fun h l hne hl => ?_⟩,
    ⟨fun h s t hs ht ho => ?_, fun h l hne hl => ?_⟩⟩
  · cases l with
    | nil => exact absurd rfl hne
    | cons v vs =>
      exact ⟨⟨_, foldl_pick_mem .gt v vs, call_of_exact call_max (hexact hl) g⟩,
        ⟨_, foldl_pick_mem .lt v vs, call_of_exact call_min (hexact hl) g⟩⟩
  · -- two texts that disagree are a choice of their own
    have hle := (h _ (by simp) (hpair hs ht)).of_pair call_max (hexact (hpair hs ht)) (.text s)
      (by simp)
    rwa [pick, Value.order_text, if_pos (Text.order_eq_gt_iff.2 ho)] at hle
  · exact (h.subset hl).picks_max hne (hexact hl)
  · have hle := (h _ (by simp) (hpair hs ht)).of_pair call_min (hexact (hpair hs ht)) (.text t)
      (by simp)
    rwa [pick, Value.order_text, Text.order_eq_gt_iff.2 ho, if_neg (by simp)] at hle
  · exact (h.subset hl).picks_min hne (hexact hl)

/-- Texts with a sign and with white space, around a whole number. -/
theorem picks_extremes_of_signed_texts :
    ∃ args : List Value, args = [.text " -3".toList, .integer 7, .text "10".toList] ∧
      (∀ v ∈ args, v.Exact) ∧ TextsAgree args ∧
      Picks "MAX".toList (· ≤ ·) args ∧ Picks "MIN".toList (· ≥ ·) args := by
  obtain ⟨args, hargs⟩ : ∃ args : List Value,
    args = [.text " -3".toList, .integer 7, .text "10".toList] := ⟨_, rfl⟩
  have hexact : ∀ v ∈ args, v.Exact := by
    rw [hargs]
    intro v hv
    simp only [List.mem_cons, List.not_mem_nil, or_false] at hv
    rcases hv with rfl | rfl | rfl
    · exact ⟨-3, rfl, by decide⟩
    · exact ⟨7, rfl, by decide⟩
    · exact ⟨10, rfl, by decide⟩
  have hagree : TextsAgree args := by
    rw [hargs]
    intro s t hs ht ho
    simp only [List.mem_cons, Value.text.injEq, reduceCtorEq, List.not_mem_nil, or_false,
      false_or] at hs ht
    rcases hs with rfl | rfl <;> rcases ht with rfl | rfl
    · exact le_refl _
    · decide
    · cases ho
    · exact le_refl _
  have hne : args ≠ [] := by simp [hargs]
  obtain ⟨-, hmax, hmin⟩ := picks_extremes_iff_texts_agree hexact
  exact ⟨args, hargs, hexact, hagree, hmax.2 hagree args hne (List.Subset.refl _),
    hmin.2 hagree args hne (List.Subset.refl _)⟩

/-- Two texts are compared as texts, so 9 is taken for more than 10. -/
theorem nine_picked_over_ten :
    (∀ v ∈ [Value.text "9".toList, .text "10".toList], v.Exact) ∧
      callFunction "MAX".toList [.text "9".toList, .text "10".toList] default =
        .ok (.text "9".toList) default ∧
      callFunction "MIN".toList [.text "9".toList, .text "10".toList] default =
        .ok (.text "10".toList) default ∧
      (Value.text "9".toList).amount = 9 ∧ (Value.text "10".toList).amount = 10 := by
  refine ⟨fun v hv => ?_, rfl, rfl, rfl, rfl⟩
  simp only [List.mem_cons, List.not_mem_nil, or_false] at hv
  rcases hv with rfl | rfl
  · exact ⟨9, rfl, by decide⟩
  · exact ⟨10, rfl, by decide⟩

end Expr

end Courseware
