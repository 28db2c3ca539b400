import Courseware.Expr.Postfix
import Mathlib.Tactic.Lemma

/-!
Reordering tokens with one stack.

The stack of what waits and the stack of arguments can be put together: a call that waits counts
the commas it has seen itself. The two forms take the same steps. For every call that waits there
is a frame in the same place, so that a frame never lacks where it is asked for, and that an
argument has begun says no more than that no operand is due.
-/

namespace Courseware.Expr

namespace Counted

/-- What waits for its right end. A call counts the commas it has seen. -/
inductive Pending where
  | operator (o : Operator)
  | group
  | call (f : Text) (commas : Nat)

/-- The waiting operators on top of the stack, innermost first, and the stack below them. -/
def drain : List Pending → List Instruction × List Pending
  | .operator o :: s => let (is, r) := drain s; (.apply o :: is, r)
  | s => ([], s)

/-- The operators on top of the stack that take their operand before `o` is read. -/
def release (o : Operator) : List Pending → List Instruction × List Pending
  | .operator top :: s =>
    if Postfix.bindsBefore top o then let (is, r) := release o s; (.apply top :: is, r)
    else ([], .operator top :: s)
  | s => ([], s)

/-- Everything that waits at the end must be an operator. -/
def finish : List Pending → Except EvalError (List Instruction)
  | [] => .ok []
  | .operator o :: s =>
    match finish s with
    | .error e => .error e
    | .ok is => .ok (.apply o :: is)
  | _ :: _ => .error (.malformed .unbalanced)

structure State where
  pending : List Pending := []
  depth : Nat := 0
  /-- An operand is due. -/
  due : Bool := true

/-- What a closing parenthesis does: the instructions it releases and the state after it. -/
def close (st : State) : Except EvalError (List Instruction × State) :=
  if st.due then
    match st.pending with
    | .call f 0 :: s => .ok ([.call f 0], ⟨s, st.depth - 1, false⟩)
    | _ => .error (.malformed .strayClose)
  else
    match drain st.pending with
    | (is, .group :: s) => .ok (is, ⟨s, st.depth - 1, false⟩)
    | (is, .call f n :: s) => .ok (is ++ [.call f (n + 1)], ⟨s, st.depth - 1, false⟩)
    | _ => .error (.malformed .unbalanced)

/-- What a comma does. -/
def separate (st : State) : Except EvalError (List Instruction × State) :=
  if st.due then .error (.malformed .missingArgument)
  else
    match drain st.pending with
    | (is, .call f n :: s) => .ok (is, ⟨.call f (n + 1) :: s, st.depth, true⟩)
    | _ => .error (.malformed .strayComma)

/-- What a parenthesis or a call does that opens with `p`. -/
def enter (maxDepth : Nat) (p : Pending) (st : State) :
    Except EvalError (List Instruction × State) :=
  if !st.due then .error (.malformed .missingOperator)
  else if maxDepth < st.depth + 1 then .error (.tooDeep maxDepth)
  else .ok ([], ⟨p :: st.pending, st.depth + 1, true⟩)

/-- What an operand does. -/
def operand (i : Instruction) (st : State) : Except EvalError (List Instruction × State) :=
  if st.due then .ok ([i], { st with due := false }) else .error (.malformed .missingOperator)

/-- What an operator does. -/
def operate (o : Operator) (st : State) : Except EvalError (List Instruction × State) :=
  match o with
  | .unary _ =>
    if st.due then .ok ([], { st with pending := .operator o :: st.pending })
    else .error (.malformed .missingOperator)
  | .binary b =>
    if st.due then .error (.malformed (.missingLeft b))
    else
      let (is, s) := release o st.pending
      .ok (is, ⟨.operator o :: s, st.depth, true⟩)

/-- What the first token does, with the tokens after it. A function takes its parenthesis
along. -/
def step (maxDepth : Nat) (st : State) (tok : Token) (rest : List Token) :
    Except EvalError (List Instruction × State × List Token) :=
  let keep := fun (x : Except EvalError (List Instruction × State)) =>
    x.map fun (is, st) => (is, st, rest)
  match tok with
  | .literal v => keep (operand (.push v) st)
  | .name n => keep (operand (.load n) st)
  | .openParen => keep (enter maxDepth .group st)
  | .closeParen => keep (close st)
  | .comma => keep (separate st)
  | .operator o => keep (operate o st)
  | .function f =>
    if !st.due then .error (.malformed .missingOperator)
    else
      match rest with
      | .openParen :: rest => (enter maxDepth (.call f 0) st).map fun (is, st) => (is, st, rest)
      | _ => .error (.malformed (.missingParenthesis f))

lemma length_step {maxDepth : Nat} {st st' : State} {tok : Token} {rest rest' : List Token}
    {is : List Instruction} (h : step maxDepth st tok rest = .ok (is, st', rest')) :
    rest'.length ≤ rest.length := by
  -- every token but a function leaves the rest as it is
  have hkeep : ∀ {x : Except EvalError (List Instruction × State)} {r : List Token},
      x.map (fun (is, st) => (is, st, r)) = .ok (is, st', rest') → rest' = r := by
    intro x r hx
    cases x with
    | error e => cases hx
    | ok p => cases hx; rfl
  unfold step at h
  cases tok with
  | function f =>
    dsimp only at h
    split at h
    · cases h
    · split at h
      · rw [hkeep h]
        exact Nat.le_succ _
      · cases h
  | _ => exact Nat.le_of_eq (congrArg List.length (hkeep h))

/-- Reorders the tokens that remain in a given state. -/
def convert (maxDepth : Nat) (st : State) (toks : List Token) :
    Except EvalError (List Instruction) :=
  match toks with
  | [] => if st.due then .error (.malformed .endsEarly) else finish st.pending
  | tok :: rest =>
    match _h : step maxDepth st tok rest with
    | .error e => .error e
    | .ok (is, st', rest') =>
      match convert maxDepth st' rest' with
      | .error e => .error e
      | .ok js => .ok (is ++ js)
termination_by toks.length
decreasing_by
  have := length_step _h
  simp only [List.length_cons]
  omega

lemma convert_cons {D : Nat} (st : State) (tok : Token) (r : List Token) :
    convert D st (tok :: r) =
      (step D st tok r).bind fun x => (convert D x.2.1 x.2.2).map (x.1 ++ ·) := by
  rw [convert]
  cases h : step D st tok r with
  | error e => rfl
  | ok x =>
    dsimp only [Except.bind]
    cases convert D x.2.1 x.2.2 <;> rfl

end Counted

namespace Postfix

/-! ### Two stacks as one -/

/-- What waits and the frames, put together into one stack. -/
inductive Merged : List Pending → List Frame → List Counted.Pending → Prop where
  | nil : Merged [] [] []
  | operator {s : List Pending} {frs : List Frame} {S : List Counted.Pending} (o : Operator)
      (h : Merged s frs S) : Merged (.operator o :: s) frs (.operator o :: S)
  | group {s : List Pending} {frs : List Frame} {S : List Counted.Pending}
      (h : Merged s frs S) : Merged (.group :: s) frs (.group :: S)
  | call {s : List Pending} {frs : List Frame} {S : List Counted.Pending} (f : Text) (fr : Frame)
      (h : Merged s frs S) : Merged (.call f :: s) (fr :: frs) (.call f fr.argc :: S)

variable {D : Nat} {s : List Pending} {frs : List Frame} {S : List Counted.Pending}

namespace Merged

lemma drain (h : Merged s frs S) :
    (drain s).1 = (Counted.drain S).1 ∧ Merged (Postfix.drain s).2 frs (Counted.drain S).2 := by
  induction h with
  | nil => exact ⟨rfl, .nil⟩
  | operator o _ ih => exact ⟨congrArg (List.cons (Instruction.apply o)) ih.1, ih.2⟩
  | group h => exact ⟨rfl, .group h⟩
  | call f fr h => exact ⟨rfl, .call f fr h⟩

lemma exists_drain (h : Merged s frs S) :
    ∃ is s' S', Postfix.drain s = (is, s') ∧ Counted.drain S = (is, S') ∧ Merged s' frs S' :=
  ⟨_, _, _, rfl, Prod.ext h.drain.1.symm rfl, h.drain.2⟩

lemma release (h : Merged s frs S) (o : Operator) :
    (release o s).1 = (Counted.release o S).1 ∧
      Merged (Postfix.release o s).2 frs (Counted.release o S).2 := by
  induction h with
  | nil => exact ⟨rfl, .nil⟩
  | operator top h ih =>
    unfold Postfix.release Counted.release
    split
    · exact ⟨congrArg (List.cons (Instruction.apply top)) ih.1, ih.2⟩
    · exact ⟨rfl, .operator top h⟩
  | group h => exact ⟨rfl, .group h⟩
  | call f fr h => exact ⟨rfl, .call f fr h⟩

lemma finish (h : Merged s frs S) : finish s = Counted.finish S := by
  induction h with
  | @operator _ _ S o _ ih =>
    cases hS : Counted.finish S <;> simp only [Postfix.finish, Counted.finish, ih, hS]
  | _ => rfl

/-- That an argument has begun is not seen in the one stack. -/
lemma begun {fr : Frame} (h : Merged s (fr :: frs) S) :
    Merged s ({ fr with hasArg := true } :: frs) S := by
  generalize hall : fr :: frs = all at h
  induction h with
  | nil => cases hall
  | operator o _ ih => exact .operator o (ih hall)
  | group _ ih => exact .group (ih hall)
  | call f fr' h =>
    cases hall
    exact .call f _ h

end Merged

/-- The states that the two forms are in at the same time. -/
structure Beside (st : State) (c : Counted.State) : Prop where
  merged : Merged st.pending st.frames c.pending
  depth : st.depth = c.depth
  due : st.due = c.due

/-- The states that the two forms are in between tokens. Where a call or a comma has just been
read, the next argument has not begun. -/
structure InStep (st : State) (c : Counted.State) : Prop extends Beside st c where
  fresh : ∀ f s fr frs, st.due = true → st.pending = .call f :: s → st.frames = fr :: frs →
    fr.hasArg = false

/-- What comes out of a token in the two forms. -/
inductive Together : Except EvalError (List Instruction × State) →
    Except EvalError (List Instruction × Counted.State) → Prop where
  | ok {st : State} {c : Counted.State} (is : List Instruction) (h : InStep st c) :
      Together (.ok (is, st)) (.ok (is, c))
  | error (e : EvalError) : Together (.error e) (.error e)

variable {st : State} {c : Counted.State}

lemma InStep.begin (h : InStep st c) (tok : Token) : Beside (begin st tok) c := by
  unfold Postfix.begin
  split
  · exact h.toBeside
  · exact h.toBeside
  · next hframes =>
    split
    · have hmerged := h.merged
      rw [hframes] at hmerged
      exact ⟨hmerged.begun, h.depth, h.due⟩
    · exact h.toBeside

lemma Beside.operand (h : Beside st c) (i : Instruction) :
    Together (operand i st) (Counted.operand i c) := by
  unfold Postfix.operand Counted.operand
  rw [h.due]
  split
  · exact .ok _ ⟨⟨h.merged, h.depth, rfl⟩, fun _ _ _ _ hdue => by cases hdue⟩
  · exact .error _

lemma Beside.enter (h : Beside st c) {p : Pending} {P : Counted.Pending}
    (hp : Merged (p :: st.pending) frs (P :: c.pending))
    (hfresh : ∀ f fr frs', p = .call f → frs = fr :: frs' → fr.hasArg = false) :
    Together (enter D p frs st) (Counted.enter D P c) := by
  unfold Postfix.enter Counted.enter
  rw [h.due, h.depth]
  split
  · exact .error _
  · split
    · exact .error _
    · refine .ok _ ⟨⟨hp, rfl, rfl⟩, fun f s fr frs' _ hs hframes => ?_⟩
      exact hfresh f fr frs' (List.cons.inj hs).1 hframes

lemma Beside.operate (h : Beside st c) (o : Operator) :
    Together (operate o st) (Counted.operate o c) := by
  have hdue := h.due
  cases o with
  | unary u =>
    unfold Postfix.operate Counted.operate
    dsimp only
    rw [hdue]
    split
    · refine .ok _ ⟨⟨.operator _ h.merged, h.depth, rfl⟩, fun _ _ _ _ _ hs => ?_⟩
      cases hs
    · exact .error _
  | binary b =>
    obtain ⟨his, hmerged⟩ := h.merged.release (.binary b)
    unfold Postfix.operate Counted.operate
    dsimp only
    rw [hdue, his]
    split
    · exact .error _
    · refine .ok _ ⟨⟨.operator _ hmerged, h.depth, rfl⟩, fun _ _ _ _ _ hs => ?_⟩
      cases hs

lemma Beside.separate (h : Beside st c) : Together (separate st) (Counted.separate c) := by
  obtain ⟨is, s, S, hs, hS, hmerged⟩ := h.merged.exists_drain
  unfold Postfix.separate Counted.separate
  rw [h.due, hs, hS]
  split
  · exact .error _
  · generalize st.frames = frs at hmerged
    -- below the operators, only a call takes a comma
    cases hmerged with
    | call f fr hm =>
      refine .ok _ ⟨⟨.call f _ hm, h.depth, rfl⟩, fun _ _ fr' _ _ _ hframes => ?_⟩
      cases hframes
      rfl
    | _ => exact .error _

lemma isEmptyCall_of_not_due (hdue : st.due = false) : isEmptyCall st = false := by
  unfold isEmptyCall
  rw [hdue]
  split <;> rfl

/-- Where an operand is due, only a call without arguments can be closed. -/
lemma InStep.close_of_due (h : InStep st c) (hdue : st.due = true) :
    Together (close st) (Counted.close c) := by
  obtain ⟨s, frs, d, due⟩ := st
  obtain ⟨S, d', due'⟩ := c
  obtain ⟨⟨hmerged, rfl, rfl⟩, hfresh⟩ := h
  dsimp only at hmerged hfresh hdue
  subst hdue
  cases hmerged with
  | call f fr hm =>
    -- a call has taken no argument yet where an operand is due
    have harg : fr.hasArg = false := hfresh f _ fr _ rfl rfl rfl
    obtain ⟨argc, hasArg⟩ := fr
    dsimp only at harg
    subst harg
    cases argc with
    | zero => exact .ok _ ⟨⟨hm, rfl, rfl⟩, fun _ _ _ _ hd => by cases hd⟩
    | succ n => exact .error _
  | _ => exact .error _

lemma InStep.close_of_not_due (h : InStep st c) (hdue : st.due = false) :
    Together (close st) (Counted.close c) := by
  obtain ⟨is, s, S, hs, hS, hmerged⟩ := h.merged.exists_drain
  have hdue' : c.due = false := h.due ▸ hdue
  have hdepth := h.depth
  unfold Postfix.close Counted.close
  rw [isEmptyCall_of_not_due hdue, hdue, hdue', hs, hS]
  generalize st.frames = frs at hmerged
  -- below the operators stands what the parenthesis closes
  cases hmerged with
  | group hm => exact .ok _ ⟨⟨hm, congrArg (· - 1) hdepth, rfl⟩, fun _ _ _ _ hd => by cases hd⟩
  | call f fr hm =>
    exact .ok _ ⟨⟨hm, congrArg (· - 1) hdepth, rfl⟩, fun _ _ _ _ hd => by cases hd⟩
  | _ => exact .error _

lemma InStep.close (h : InStep st c) : Together (close st) (Counted.close c) := by
  cases hdue : st.due with
  | true => exact h.close_of_due hdue
  | false => exact h.close_of_not_due hdue

/-- What comes out of the first token in the two forms, with the tokens that remain. -/
def Abreast (x : Except EvalError (List Instruction × State × List Token))
    (y : Except EvalError (List Instruction × Counted.State × List Token)) : Prop :=
  (∃ e, x = .error e ∧ y = .error e) ∨
    ∃ is st c r, x = .ok (is, st, r) ∧ y = .ok (is, c, r) ∧ InStep st c

lemma Together.abreast {x : Except EvalError (List Instruction × State)}
    {y : Except EvalError (List Instruction × Counted.State)} (h : Together x y)
    (r : List Token) :
    Abreast (x.map fun (is, st) => (is, st, r)) (y.map fun (is, c) => (is, c, r)) := by
  cases h with
  | ok is h => exact .inr ⟨is, _, _, r, rfl, rfl, h⟩
  | error e => exact .inl ⟨e, rfl, rfl⟩

/-- **The two forms stay in step.** -/
theorem InStep.step (h : InStep st c) (tok : Token) (rest : List Token) :
    Abreast (step D st tok rest) (Counted.step D c tok rest) := by
  have hbegin := h.begin tok
  cases tok with
  | literal v => exact (hbegin.operand _).abreast rest
  | name n => exact (hbegin.operand _).abreast rest
  | openParen =>
    exact (hbegin.enter (.group hbegin.merged) fun f fr frs hp => by cases hp).abreast rest
  | closeParen => exact h.close.abreast rest
  | comma => exact hbegin.separate.abreast rest
  | operator o => exact (hbegin.operate o).abreast rest
  | function f =>
    -- a function needs an operand to be due, and a parenthesis
    have hdue := hbegin.due
    unfold Postfix.step Counted.step
    dsimp only
    rw [hdue]
    split
    · exact .inl ⟨_, rfl, rfl⟩
    · cases rest with
      | nil => exact .inl ⟨_, rfl, rfl⟩
      | cons tok r =>
        cases tok with
        | openParen =>
          refine (hbegin.enter (.call f {} hbegin.merged) fun f fr frs _ hframes => ?_).abreast r
          cases hframes
          rfl
        | _ => exact .inl ⟨_, rfl, rfl⟩

lemma convert_cons (st : State) (tok : Token) (r : List Token) :
    convert D st (tok :: r) =
      (step D st tok r).bind fun x => (convert D x.2.1 x.2.2).map (x.1 ++ ·) := by
  rw [convert]
  cases h : step D st tok r with
  | error e => rfl
  | ok x =>
    dsimp only [Except.bind]
    cases convert D x.2.1 x.2.2 <;> rfl

/-- **Two stacks reorder as one.** -/
theorem convert_eq_counted {st : State} {c : Counted.State} {toks : List Token}
    (h : InStep st c) : convert D st toks = Counted.convert D c toks := by
  cases toks with
  | nil => rw [convert, Counted.convert, h.due, h.merged.finish]
  | cons tok rest =>
    rw [convert_cons, Counted.convert_cons]
    rcases h.step (D := D) tok rest with ⟨e, hx, hy⟩ | ⟨is, st', c', r, hx, hy, h'⟩
    · rw [hx, hy]
      rfl
    · have hlength := length_step hx
      rw [hx, hy]
      exact congrArg (Except.map (is ++ ·)) (convert_eq_counted h')
termination_by toks.length
decreasing_by
  subst toks
  exact Nat.lt_succ_of_le hlength

end Postfix

/-- The postfix form can be had with one stack. -/
lemma postfixForm_cons (limits : Limits) (tok : Token) (toks : List Token) :
    postfixForm limits (tok :: toks) = Counted.convert limits.maxDepth {} (tok :: toks) :=
  Postfix.convert_eq_counted ⟨⟨.nil, rfl, rfl⟩, fun _ _ _ _ _ hs => by cases hs⟩

end Courseware.Expr
