import Courseware.Basic.Scanning
import Courseware.Command.Assignment
import Courseware.Command.Error
import Courseware.Text.Literal

/-!
The statements of BASIC other than `IF`, and how they are read. A statement that cannot be
read stands for its failure.
-/

namespace Courseware.Basic

open Text

inductive Keyword where
  | assign
  | print
  | input
  | goto
  | gosub
  | comeBack
  | ifThen
  | forLoop
  | next
  | finish
  | remark
  | read
  | restore
  | randomize
  | swap
  | color
  | clearScreen
deriving DecidableEq

namespace Keyword

def names : List (Text × Keyword) :=
  [("LET".toList, assign), ("SET".toList, assign), ("PRINT".toList, print),
    ("INPUT".toList, input), ("GOTO".toList, goto), ("GOSUB".toList, gosub),
    ("RETURN".toList, comeBack), ("IF".toList, ifThen), ("FOR".toList, forLoop),
    ("NEXT".toList, next), ("END".toList, finish), ("STOP".toList, finish),
    ("REM".toList, remark), ("DATA".toList, remark), ("READ".toList, read),
    ("RESTORE".toList, restore), ("RANDOMIZE".toList, randomize), ("SWAP".toList, swap),
    ("COLOR".toList, color), ("CLS".toList, clearScreen)]

/-- The keyword with a given name in capitals. -/
def ofName? (name : Text) : Option Keyword := names.lookup name

end Keyword

/-- What is printed: the contents of a quoted text, or the value of an expression. -/
inductive Content where
  | literal (t : Text)
  | expr (t : Text)
deriving DecidableEq

def Content.ofText (t : Text) : Content :=
  match quoted? t with
  | some u => .literal u
  | none => .expr t

/-- Something to be printed, with a space in front or not. -/
structure PrintItem where
  spaced : Bool
  content : Content
deriving DecidableEq

inductive Statement where
  | assign (name : Text) (value : Content)
  | print (items : List PrintItem)
  | input (prompt name : Text)
  | goto (target : Text)
  | gosub (target : Text)
  | comeBack
  | forLoop (name start limit : Text) (step : Option Text)
  | next (name : Text)
  | finish
  | remark
  | read (names : List Text)
  | restore
  | randomize (seed : Text)
  | swap (a b : Text)
  | color (expr : Text)
  | clearScreen
  | faulty (e : ExecError)

namespace Statement

def readAssign (t : Text) : Statement :=
  match Assignment.parse? t with
  | some a => .assign a.name (.ofText a.expr)
  | none => .faulty (.misuse (.notLooseAssignment t))

/-- The items to be printed, where `pending` is the separator before them. A comma puts a
space between items and a semicolon nothing. -/
def printItems (pending : Option Char) : List (Text × Option Char) → List PrintItem
  | [] => []
  | (piece, sep) :: r =>
    let t := trim piece
    if t = [] then printItems (sep.or pending) r
    else ⟨pending = some ',', .ofText t⟩ :: printItems sep r

/-- Reads `"PROMPT"; NAME` or just the name. -/
def readInput (t : Text) : Statement :=
  let make := fun (prompt name : Text) =>
    if name = [] then faulty (.misuse .inputVariable) else .input prompt name
  match topPieces t with
  | [(name, _)] => make "? ".toList (trim name)
  | [(prompt, _), (name, _)] => make ((quoted? prompt).getD (trim prompt)) (trim name)
  | _ => faulty (.misuse .inputVariables)

/-- Reads `NAME = START TO LIMIT STEP STEP`, where the step may be missing. -/
def readFor (t : Text) : Statement :=
  let bad := faulty (.eval (.malformed .noLoop) true)
  match Assignment.parse? t with
  | none => bad
  | some a =>
    match atKeyword? "TO".toList a.expr with
    | none => bad
    | some (start, rest) =>
      match atKeyword? "STEP".toList rest with
      | none => .forLoop a.name start rest none
      | some (limit, step) => .forLoop a.name start limit (some step)

def readRead (t : Text) : Statement :=
  match ((pieces (· == ',') t).map trim).filter (· ≠ []) with
  | [] => faulty (.misuse .noReadVariable)
  | names => .read names

def readSwap (t : Text) : Statement :=
  match cut? ',' t with
  | some (a, b) => .swap (trim a) (trim b)
  | none => faulty (.misuse .swapVariables)

/-- The statement with a given keyword, other than `IF`; `t` is what follows the keyword,
without white space at its ends. -/
def ofKeyword (k : Keyword) (t : Text) : Statement :=
  match k with
  | .assign => readAssign t
  | .print => .print (printItems none (topPieces t))
  | .input => readInput t
  | .goto => .goto t
  | .gosub => .gosub t
  | .comeBack => .comeBack
  | .ifThen => faulty (.misuse .noThen)
  | .forLoop => readFor t
  | .next => .next t
  | .finish => .finish
  | .remark => .remark
  | .read => readRead t
  | .restore => .restore
  | .randomize => .randomize t
  | .swap => readSwap t
  | .color => .color t
  | .clearScreen => .clearScreen

end Statement

end Courseware.Basic
