import Courseware.Expr.Arithmetic
import Courseware.Random
import Courseware.Text.Casing

/-!
The functions that expressions may call, and the one named constant.
-/

namespace Courseware.Expr

open Number

/-- Evaluation may draw random numbers; draws made before an error stay made. -/
abbrev Evaluation := EStateM EvalError Generator

/-- Evaluation that draws no random numbers. -/
def lift {α : Type} (x : Except EvalError α) : Evaluation α :=
  match x with
  | .ok a => pure a
  | .error e => throw e

inductive Builtin where
  | sin
  | cos
  | tan
  | atan
  | sqrt
  | abs
  | floor
  | ceil
  | round
  | exp
  | ln
  | log10
  | sign
  | least
  | greatest
  | power
  | random
  | length
  | left
  | right
  | middle
  | uppercase
  | lowercase
  | text
  | number
  | character
  | code
deriving DecidableEq

namespace Builtin

/-- The names by which functions are called. -/
def names : List (Text × Builtin) :=
  [("SIN".toList, sin), ("COS".toList, cos), ("TAN".toList, tan), ("ATN".toList, atan),
    ("ATAN".toList, atan), ("SQR".toList, sqrt), ("SQRT".toList, sqrt), ("ABS".toList, abs),
    ("INT".toList, floor), ("FLOOR".toList, floor), ("CEIL".toList, ceil),
    ("ROUND".toList, round), ("EXP".toList, exp), ("LOG".toList, ln), ("LOG10".toList, log10),
    ("SGN".toList, sign), ("MIN".toList, least), ("MAX".toList, greatest),
    ("POW".toList, power), ("RND".toList, random), ("RAND".toList, random),
    ("LEN".toList, length), ("LEFT$".toList, left), ("LEFT".toList, left),
    ("RIGHT$".toList, right), ("RIGHT".toList, right), ("MID$".toList, middle),
    ("MID".toList, middle), ("UPPER".toList, uppercase), ("UCASE$".toList, uppercase),
    ("LOWER".toList, lowercase), ("LCASE$".toList, lowercase), ("STR$".toList, text),
    ("VAL".toList, number), ("CHR$".toList, character), ("ASC".toList, code)]

def ofName? (name : Text) : Option Builtin := names.lookup name

def isName (name : Text) : Bool := (ofName? name).isSome

/-- Arguments as a float; `f` is the name used in the call. -/
def floatArg (f : Text) (v : Value) : Except EvalError Float :=
  match v.toFloat? with
  | some x => .ok x
  | none => .error (.mismatch (.notNumber f v))

def wordArg (f : Text) (v : Value) : Except EvalError Int64 :=
  match v.toInteger? with
  | some n => .ok n
  | none => .error (.mismatch (.notInteger f v))

/-- A count; negative numbers count as zero. -/
def countArg (f : Text) (v : Value) : Except EvalError Nat :=
  (wordArg f v).map (·.toInt.toNat)

/-- The wrong number of arguments. -/
def wrongArity (f : Text) (least most : Nat) (args : List Value) : EvalError :=
  .mismatch (.arity f least most args.length)

def oneArg (f : Text) : List Value → Except EvalError Value
  | [v] => .ok v
  | args => .error (wrongArity f 1 1 args)

def twoArgs (f : Text) : List Value → Except EvalError (Value × Value)
  | [v, w] => .ok (v, w)
  | args => .error (wrongArity f 2 2 args)

/-- A float with a whole value, as a whole number if it fits. -/
def whole (x : Float) : Value := if fitsWord x then .integer (toWord x) else .float x

def floatFunction (g : Float → Float) (f : Text) (args : List Value) :
    Except EvalError Value := do
  let x ← floatArg f (← oneArg f args)
  return .float (g x)

/-- Whole numbers are kept as they are. -/
def rounding (g : Float → Float) (f : Text) (args : List Value) : Except EvalError Value := do
  match ← oneArg f args with
  | .integer n => return .integer n
  | v => return whole (g (← floatArg f v))

def squareRoot (f : Text) (args : List Value) : Except EvalError Value := do
  let x ← floatArg f (← oneArg f args)
  if x < 0 then throw (.mismatch (.negativeRoot f x))
  return .float x.sqrt

def logarithm (g : Float → Float) (f : Text) (args : List Value) :
    Except EvalError Value := do
  let x ← floatArg f (← oneArg f args)
  if x ≤ 0 then throw (.mismatch (.nonPositiveLog f x))
  return .float (g x)

def absolute (f : Text) (args : List Value) : Except EvalError Value := do
  match ← oneArg f args with
  | .integer n => return ((abs? n).map Value.integer).getD (.float (ofWord n).abs)
  | v => return .float (← floatArg f v).abs

/-- The number of decimal places to round to. -/
def digitsArg (f : Text) (v : Value) : Except EvalError Int := do
  let d ← wordArg f v
  if d.toInt.natAbs ≤ maxRoundDigits then return d.toInt
  throw (.mismatch (.roundDigits f d))

/-- Halves are rounded away from zero. -/
def roundTo (f : Text) (args : List Value) : Except EvalError Value := do
  match args with
  | [v] => return whole (← floatArg f v).round
  | [v, d] =>
    let x ← floatArg f v
    let scale := scaleOfTen (← digitsArg f d)
    return .float ((x * scale).round / scale)
  | args => throw (wrongArity f 1 2 args)

def signOf (f : Text) (args : List Value) : Except EvalError Value := do
  let x ← floatArg f (← oneArg f args)
  return .integer (if 0 < x then 1 else if x < 0 then -1 else 0)

/-- The argument that stays when `v` is compared with the best so far. -/
def better (keep : Ordering) (f : Text) (best v : Value) : Except EvalError Value := do
  let _ ← floatArg f v
  return if (← compare v best) = keep then v else best

/-- The first of the arguments that no later one beats. -/
def extreme (keep : Ordering) (f : Text) : List Value → Except EvalError Value
  | [] => .error (.mismatch (.noArguments f))
  | v :: vs => do
    let _ ← floatArg f v
    vs.foldlM (better keep f) v

def leftPart (f : Text) (args : List Value) : Except EvalError Value := do
  let (v, n) ← twoArgs f args
  return .text (v.display.take (← countArg f n))

def rightPart (f : Text) (args : List Value) : Except EvalError Value := do
  let (v, n) ← twoArgs f args
  let t := v.display
  return .text (t.drop (t.length - (← countArg f n)))

/-- Places are counted from one. -/
def middlePart (f : Text) (args : List Value) : Except EvalError Value := do
  match args with
  | [v, s] => return .text (v.display.drop ((← countArg f s) - 1))
  | [v, s, n] =>
    let start := (← countArg f s) - 1
    return .text ((v.display.drop start).take (← countArg f n))
  | args => throw (wrongArity f 2 3 args)

def textFunction (g : Text → Text) (f : Text) (args : List Value) :
    Except EvalError Value := do
  return .text (g (← oneArg f args).display)

/-- The character with a given code point, which must be one. -/
def characterOf (f : Text) (args : List Value) : Except EvalError Value := do
  let n ← wordArg f (← oneArg f args)
  let valid := 0 ≤ n.toInt ∧ n.toInt.toNat.isValidChar
  if valid then return .text [Char.ofNat n.toInt.toNat]
  throw (.mismatch (.noCharacter n))

def codeOf (f : Text) (args : List Value) : Except EvalError Value := do
  match (← oneArg f args).display with
  | [] => throw (.mismatch .emptyText)
  | c :: _ => return .integer (Int64.ofNat c.toNat)

def drawRandom (f : Text) (args : List Value) : Evaluation Value := do
  if args.length ≤ 1 then
    let (x, g) := (← get).draw
    set g
    return .float x
  throw (wrongArity f 0 1 args)

/-- What a function gives, where `f` is the name used in the call. -/
def apply (b : Builtin) (f : Text) (args : List Value) : Evaluation Value :=
  match b with
  | sin => lift (floatFunction Float.sin f args)
  | cos => lift (floatFunction Float.cos f args)
  | tan => lift (floatFunction Float.tan f args)
  | atan => lift (floatFunction Float.atan f args)
  | sqrt => lift (squareRoot f args)
  | abs => lift (absolute f args)
  | floor => lift (rounding Float.floor f args)
  | ceil => lift (rounding Float.ceil f args)
  | round => lift (roundTo f args)
  | exp => lift (floatFunction Float.exp f args)
  | ln => lift (logarithm Float.log f args)
  | log10 => lift (logarithm Float.log10 f args)
  | sign => lift (signOf f args)
  | least => lift (extreme .lt f args)
  | greatest => lift (extreme .gt f args)
  | power => lift (do let (v, w) ← twoArgs f args; Expr.power v w)
  | random => drawRandom f args
  | length => lift (do return .integer (Int64.ofNat (← oneArg f args).display.length))
  | left => lift (leftPart f args)
  | right => lift (rightPart f args)
  | middle => lift (middlePart f args)
  | uppercase => lift (textFunction Text.uppercase f args)
  | lowercase => lift (textFunction Text.lowercase f args)
  | text => lift (textFunction id f args)
  | number => lift (do return ((← oneArg f args).toNumber?).getD (.integer 0))
  | character => lift (characterOf f args)
  | code => lift (codeOf f args)

end Builtin

/-- Calls a function by its name. -/
def callFunction (name : Text) (args : List Value) : Evaluation Value :=
  match Builtin.ofName? name with
  | some b => b.apply name args
  | none => throw (.unknownSymbol name)

/-- The value of a named constant. -/
def constant? (name : Text) : Option Value :=
  if name = "PI".toList then some (.float 3.141592653589793) else none

end Courseware.Expr
