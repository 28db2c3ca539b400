import Courseware.Basic.Statement
import Courseware.Expr.Evaluation
import Courseware.Machine.Basic

/-!
Executing the statements of BASIC.
-/

namespace Courseware.Basic

open Text Exec

/-- The value of what is assigned. -/
def Content.value : Content → Exec Value
  | .literal t => do return .text (← interpolate t)
  | .expr t => evaluate t

def assign (name : Text) (c : Content) : Exec Directive := do
  setVariable name (← c.value)
  return .next

/-- The texts of the items, joined. -/
def printed : List PrintItem → Exec Text
  | [] => return []
  | i :: is => do
    let t := (← i.content.value).display
    let rest ← printed is
    return (if i.spaced then ' ' :: t else t) ++ rest

def input (prompt name : Text) : Exec Directive := do
  match ← readLine (← interpolate prompt) with
  | none => fail (.noInput (canonical name))
  | some line =>
    setVariable name (.ofInput line)
    return .next

/-- The place of the line whose number is a given value. -/
def numbered? (p : Program) (v : Value) : Option Nat := do
  let n ← v.toInteger?
  if 0 ≤ n.toInt ∧ n.toInt < UInt32.size then p.number? n.toInt.toNat else none

/-- The place that a jump leads to: a line number, a label, or an expression whose value is a
line number. A text that can only be a name is not evaluated unless it is a variable. -/
def jumpTarget (t : Text) : Exec Nat := do
  if t = [] then misused .noTarget
  match (← program).target? t with
  | some i => return i
  | none =>
    if t.all Number.isDigit || (t.all isNameChar && (← valueOf? t).isNone) then
      fail (.undefinedLabel t)
    let v ← fatally (evaluate t)
    match numbered? (← program) v with
    | some i => return i
    | none => fail (.undefinedLabel v.display)

/-- A number that a loop needs; a failure is fatal. -/
def loopNumber (t : Text) : Exec Value := do
  let v ← fatally (evaluate t)
  if v.isNumeric then return v
  fail (.eval (.mismatch (.loopBound v)) true)

/-- The loops that stay when one over `var` is entered anew. -/
def outerLoops (var : Text) (loops : List Loop) : List Loop :=
  if loops.any (·.var = var) then (loops.dropWhile (·.var ≠ var)).drop 1 else loops

def forLoop (name start limit : Text) (step : Option Text) : Exec Directive := do
  let first ← loopNumber start
  let last ← loopNumber limit
  let by_ ← match step with
    | some t => loopNumber t
    | none => pure (.integer 1)
  let var := canonical name
  let index := (← read).index
  modify fun m => { m with loops := ⟨var, last, by_, index + 1⟩ :: outerLoops var m.loops }
  setVariable var first
  return .next

/-- Whether a loop goes on with the value `v`. A step of zero counts as descending. -/
def goesOn (f : Loop) (v : Value) : Option Bool := do
  let n ← v.toFloat?
  let limit ← f.limit.toFloat?
  let step ← f.step.toFloat?
  return if 0 < step then n ≤ limit else limit ≤ n

/-- Ends a pass of the loop over `name`, or of the innermost loop. Loops inside of it are
left. -/
def next (name : Text) : Exec Directive := do
  let loops := (← get).loops
  let frames := if name = [] then loops else loops.dropWhile (·.var ≠ canonical name)
  match frames with
  | [] => fail (.stackUnderflow "NEXT" "FOR")
  | f :: outer =>
    modify fun m => { m with loops := frames }
    match ← valueOf? f.var with
    | none => fail (.eval (.unknownSymbol f.var) true)
    | some v =>
      let w ← fatally (ofEval (Expr.BinaryOp.add.apply v f.step))
      setVariable f.var w
      match goesOn f w with
      | none => fail (.eval (.mismatch .loopVariable) true)
      | some true => return .jump f.body
      | some false =>
        modify fun m => { m with loops := outer }
        return .next

/-- Reads the next item of data into each variable. -/
def readData : List Text → Exec Directive
  | [] => return .next
  | name :: names => do
    match (← program).data[(← get).dataRead]? with
    | none => fail .outOfData
    | some v =>
      modify fun m => { m with dataRead := m.dataRead + 1 }
      setVariable name v
      readData names

def randomize (t : Text) : Exec Directive := do
  let seed ← if t = [] then pure none else do
    let v ← evaluate t
    match v.toInteger? with
    | some n => pure (some n.toUInt64)
    | none => misused (.seed v)
  modify fun m => { m with random := m.random.reseed seed }
  return .next

/-- The value of a variable that must be there. -/
def known (name : Text) : Exec Value := do
  match ← valueOf? name with
  | some v => return v
  | none => fail (.eval (.unknownSymbol (canonical name)) false)

def swap (a b : Text) : Exec Directive := do
  let v ← known a
  let w ← known b
  setVariable a w
  setVariable b v
  return .next

def color (t : Text) : Exec Directive := do
  match ← evaluate t with
  | .text name => draw (·.setColor name)
  | v =>
    match v.toInteger? with
    | some n => draw (·.setColorIndex n)
    | none => misused .paletteNumber
  return .next

def Statement.run : Statement → Exec Directive
  | .assign name c => Basic.assign name c
  | .print items => do
    Exec.print (← printed items)
    return .next
  | .input prompt name => Basic.input prompt name
  | .goto t => do return .jump (← jumpTarget t)
  | .gosub t => do enterSubroutine (← jumpTarget t)
  | .comeBack => leaveSubroutine "RETURN" "GOSUB"
  | .forLoop name start limit step => Basic.forLoop name start limit step
  | .next name => Basic.next name
  | .finish => return .halt
  | .remark => return .next
  | .read names => readData names
  | .restore => do
    modify fun m => { m with dataRead := 0 }
    return .next
  | .randomize t => Basic.randomize t
  | .swap a b => Basic.swap a b
  | .color t => Basic.color t
  | .clearScreen => do
    draw (·.clear)
    return .next
  | .faulty e => fail e

end Courseware.Basic
