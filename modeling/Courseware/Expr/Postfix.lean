import Courseware.Expr.Token

/-!
Postfix form: operands first, then what is done with them. Tokens are reordered in one pass
with a stack of operators, groups and calls that still wait for their right ends, and another one
with the arguments of these calls.
-/

namespace Courseware.Expr

inductive Instruction where
  | push (v : Value)
  | load (n : Text)
  | apply (o : Operator)
  | call (f : Text) (argc : Nat)

/-- What waits for its right end. -/
inductive Pending where
  | operator (o : Operator)
  | group
  | call (f : Text)

/-- The arguments of a call that waits for its right end. -/
structure Frame where
  /-- How many of them a comma has ended. -/
  argc : Nat := 0
  /-- Whether one has begun after the last comma. -/
  hasArg : Bool := false

namespace Postfix

/-- The waiting operators on top of the stack, innermost first, and the stack below them. -/
def drain : List Pending → List Instruction × List Pending
  | .operator o :: s => let (is, r) := drain s; (.apply o :: is, r)
  | s => ([], s)

/-- Whether a waiting operator takes the operand before `o` is read. -/
def bindsBefore (top o : Operator) : Bool :=
  o.precedence < top.precedence || (top.precedence = o.precedence && !o.groupsRight)

/-- The operators on top of the stack that take their operand before `o` is read. -/
def release (o : Operator) : List Pending → List Instruction × List Pending
  | .operator top :: s =>
    if bindsBefore top o then let (is, r) := release o s; (.apply top :: is, r)
    else ([], .operator top :: s)
  | s => ([], s)

/-- Everything that waits at the end must be an operator. -/
def finish : List Pending → Except EvalError (List Instruction)
  | [] => .ok []
  | .operator o :: s =>
    match finish s with
    | .error e => .error e
    | .ok is => .ok (.apply o :: is)
  | _ :: _ => .error (.malformed .unbalanced)

/-- Whether the innermost open parenthesis is that of a call. -/
def insideCall : List Pending → Bool
  | .operator _ :: s => insideCall s
  | .call _ :: _ => true
  | _ => false

structure State where
  pending : List Pending := []
  /-- The arguments of the calls that wait, innermost first. -/
  frames : List Frame := []
  depth : Nat := 0
  /-- An operand is due. -/
  due : Bool := true

/-- An operand that is due in a call begins an argument of it, unless the call is closed. -/
def begin (st : State) (tok : Token) : State :=
  match tok, st.frames with
  | .closeParen, _ => st
  | _, [] => st
  | _, fr :: frs =>
    if st.due && insideCall st.pending then { st with frames := { fr with hasArg := true } :: frs }
    else st

/-- Whether a call has been opened and no argument of it has begun. -/
def isEmptyCall (st : State) : Bool :=
  match st.pending, st.frames with
  | .call _ :: _, fr :: _ => st.due && fr.argc == 0 && !fr.hasArg
  | _, _ => false

/-- What a closing parenthesis does: the instructions it releases and the state after it. -/
def close (st : State) : Except EvalError (List Instruction × State) :=
  if st.due && !isEmptyCall st then .error (.malformed .strayClose)
  else
    match drain st.pending, st.frames with
    | (is, .group :: s), frs => .ok (is, ⟨s, frs, st.depth - 1, false⟩)
    | (is, .call f :: s), fr :: frs =>
      let argc := if isEmptyCall st then 0 else fr.argc + 1
      .ok (is ++ [.call f argc], ⟨s, frs, st.depth - 1, false⟩)
    | _, _ => .error (.malformed .unbalanced)

/-- What a comma does. -/
def separate (st : State) : Except EvalError (List Instruction × State) :=
  if st.due then .error (.malformed .missingArgument)
  else
    match drain st.pending, st.frames with
    | (is, .call f :: s), fr :: frs =>
      .ok (is, ⟨.call f :: s, { argc := fr.argc + 1 } :: frs, st.depth, true⟩)
    | _, _ => .error (.malformed .strayComma)

/-- What a parenthesis or a call does that opens with `p`. -/
def enter (maxDepth : Nat) (p : Pending) (frames : List Frame) (st : State) :
    Except EvalError (List Instruction × State) :=
  if !st.due then .error (.malformed .missingOperator)
  else if maxDepth < st.depth + 1 then .error (.tooDeep maxDepth)
  else .ok ([], ⟨p :: st.pending, frames, st.depth + 1, true⟩)

/-- What an operand does. -/
def operand (i : Instruction) (st : State) : Except EvalError (List Instruction × State) :=
  if st.due then .ok ([i], { st with due := false }) else .error (.malformed .missingOperator)

/-- What an operator does. -/
def operate (o : Operator) (st : State) : Except EvalError (List Instruction × State) :=
  match o with
  | .unary _ =>
    if st.due then .ok ([], { st with pending := .operator o :: st.pending })
    else .error (.malformed .missingOperator)
  | .binary b =>
    if st.due then .error (.malformed (.missingLeft b))
    else
      let (is, s) := release o st.pending
      .ok (is, { st with pending := .operator o :: s, due := true })

/-- What the first token does, with the tokens after it. A function takes its parenthesis
along. -/
def step (maxDepth : Nat) (st : State) (tok : Token) (rest : List Token) :
    Except EvalError (List Instruction × State × List Token) :=
  let st := begin st tok
  let keep := fun (x : Except EvalError (List Instruction × State)) =>
    x.map fun (is, st) => (is, st, rest)
  match tok with
  | .literal v => keep (operand (.push v) st)
  | .name n => keep (operand (.load n) st)
  | .openParen => keep (enter maxDepth .group st.frames st)
  | .closeParen => keep (close st)
  | .comma => keep (separate st)
  | .operator o => keep (operate o st)
  | .function f =>
    if !st.due then .error (.malformed .missingOperator)
    else
      match rest with
      | .openParen :: rest =>
        (enter maxDepth (.call f) ({} :: st.frames) st).map fun (is, st) => (is, st, rest)
      | _ => .error (.malformed (.missingParenthesis f))

theorem length_step {maxDepth : Nat} {st st' : State} {tok : Token} {rest rest' : List Token}
    {is : List Instruction} (h : step maxDepth st tok rest = .ok (is, st', rest')) :
    rest'.length ≤ rest.length := by
  have hkeep : ∀ {x : Except EvalError (List Instruction × State)} {r : List Token},
      x.map (fun (is, st) => (is, st, r)) = .ok (is, st', rest') → rest' = r := by
    intro x r hx
    cases x with
    | error e => cases hx
    | ok p => cases hx; rfl
  unfold step at h
  cases tok with
  | literal v => exact Nat.le_of_eq (congrArg List.length (hkeep h))
  | name n => exact Nat.le_of_eq (congrArg List.length (hkeep h))
  | openParen => exact Nat.le_of_eq (congrArg List.length (hkeep h))
  | closeParen => exact Nat.le_of_eq (congrArg List.length (hkeep h))
  | comma => exact Nat.le_of_eq (congrArg List.length (hkeep h))
  | operator o => exact Nat.le_of_eq (congrArg List.length (hkeep h))
  | function f =>
    dsimp only at h
    split at h
    · cases h
    · split at h
      · rw [hkeep h]
        exact Nat.le_succ _
      · cases h

/-- Reorders the tokens that remain in a given state. -/
def convert (maxDepth : Nat) (st : State) (toks : List Token) :
    Except EvalError (List Instruction) :=
  match toks with
  | [] => if st.due then .error (.malformed .endsEarly) else finish st.pending
  | tok :: rest =>
    match _h : step maxDepth st tok rest with
    | .error e => .error e
    | .ok (is, st', rest') =>
      match convert maxDepth st' rest' with
      | .error e => .error e
      | .ok js => .ok (is ++ js)
termination_by toks.length
decreasing_by
  have := length_step _h
  simp only [List.length_cons]
  omega

end Postfix

/-- The postfix form of an expression. -/
def postfixForm (limits : Limits) (toks : List Token) : Except EvalError (List Instruction) :=
  match toks with
  | [] => .error (.malformed .empty)
  | toks => Postfix.convert limits.maxDepth {} toks

end Courseware.Expr
