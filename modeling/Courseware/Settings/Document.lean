import Courseware.Number.Reading
import Courseware.Text.Basic

/-!
The text of a settings document, a subset of TOML: comments, `key = value` and headers of
tables. Values are numbers, truth values, quoted texts on one line, and lists.
-/

namespace Courseware

inductive Setting where
  | integer (n : Int)
  | float (x : Float)
  | boolean (b : Bool)
  | text (t : Text)
  | list (items : List Setting)
  | table (entries : List (Text × Setting))

namespace Document

open Number

/-- What a line of a document says. -/
inductive Statement where
  | header (path : List Text)
  | entry (path : List Text) (v : Setting)

def isSpace (c : Char) : Bool := c == ' ' || c == '\t'

def skipSpace (t : Text) : Text := t.dropWhile isSpace

/-- Control characters may stand neither in comments nor in quoted texts; a tab may. -/
def isControl (c : Char) : Bool := (c.toNat < 32 && c != '\t') || c.toNat == 127

/-- What follows the line, if nothing but a comment is left on it. -/
def endLine? (t : Text) : Option Text :=
  let rest :=
    match skipSpace t with
    | '#' :: r => r.dropWhile fun c => !isControl c
    | r => r
  match rest with
  | [] => some []
  | '\n' :: r => some r
  | '\r' :: '\n' :: r => some r
  | _ => none

/-- Skips white space, line ends and comments. -/
def skipLines (inComment : Bool) : Text → Text
  | [] => []
  | c :: r =>
    if inComment then skipLines (c != '\n') r
    else if isSpace c || c == '\n' then skipLines false r
    else if c == '\r' && r.head? == some '\n' then skipLines false r
    else if c == '#' then skipLines true r
    else c :: r

/-- The value of a digit in a base of at most 16. -/
def digit? (base : Nat) (c : Char) : Option Nat :=
  let n := c.toNat
  let d :=
    if 48 ≤ n ∧ n ≤ 57 then n - 48
    else if 97 ≤ n ∧ n ≤ 102 then n - 87
    else if 65 ≤ n ∧ n ≤ 70 then n - 55
    else base
  if d < base then some d else none

def based? (base : Nat) (t : Text) : Option Nat :=
  if t = [] then none
  else t.foldlM (fun v c => (digit? base c).map (base * v + ·)) 0

/-- The character with a given code in hexadecimal. -/
def character? (hex : Text) : Option Char := do
  let n ← based? 16 hex
  if n.isValidChar then some (Char.ofNat n) else none

def escape? : Char → Option Char
  | 'b' => some '\x08'
  | 't' => some '\t'
  | 'n' => some '\n'
  | 'f' => some '\x0c'
  | 'r' => some '\r'
  | '"' => some '"'
  | '\\' => some '\\'
  | _ => none

/-- The text up to a closing double quote, and what follows. -/
def readBasic? : Text → Option (Text × Text)
  | [] => none
  | '"' :: r => some ([], r)
  | '\\' :: 'u' :: a :: b :: c :: d :: r => do
    let e ← character? [a, b, c, d]
    let (t, rest) ← readBasic? r
    some (e :: t, rest)
  | '\\' :: 'U' :: a :: b :: c :: d :: e :: f :: g :: h :: r => do
    let i ← character? [a, b, c, d, e, f, g, h]
    let (t, rest) ← readBasic? r
    some (i :: t, rest)
  | '\\' :: c :: r => do
    let e ← escape? c
    let (t, rest) ← readBasic? r
    some (e :: t, rest)
  | c :: r =>
    if isControl c then none
    else (readBasic? r).map fun (t, rest) => (c :: t, rest)

/-- The text up to a closing single quote, and what follows. -/
def readLiteral? : Text → Option (Text × Text)
  | [] => none
  | c :: r =>
    if c == '\'' then some ([], r)
    else if isControl c then none
    else (readLiteral? r).map fun (t, rest) => (c :: t, rest)

/-- Digits without the underscores between them. -/
def ungroup? (t : Text) : Option Text :=
  let ps := Text.pieces (· == '_') t
  if ps.all (· ≠ []) then some ps.flatten else none

/-- A whole number without needless zeros in front. -/
def readWhole? (t : Text) : Option Nat := do
  let n ← readDigits? (← ungroup? t)
  if t.head? = some '0' ∧ t ≠ ['0'] then none else some n

/-- Whole numbers in base ten may have a sign. -/
def readInteger? : Text → Option Int
  | '0' :: 'x' :: r => do return (← based? 16 (← ungroup? r) : Nat)
  | '0' :: 'o' :: r => do return (← based? 8 (← ungroup? r) : Nat)
  | '0' :: 'b' :: r => do return (← based? 2 (← ungroup? r) : Nat)
  | '-' :: r => do return -(← readWhole? r : Nat)
  | '+' :: r => do return (← readWhole? r : Nat)
  | r => do return (← readWhole? r : Nat)

def isExponent : Text → Bool
  | 'e' :: r => (readInt? r).isSome
  | 'E' :: r => (readInt? r).isSome
  | _ => false

/-- What may follow the whole part of a number that is not whole. -/
def isFraction : Text → Bool
  | '.' :: r =>
    r.head?.any isDigit &&
      let rest := r.dropWhile isDigit
      rest = [] || isExponent rest
  | r => isExponent r

def readReal? (t : Text) : Option Float :=
  let body :=
    match t with
    | '+' :: r => r
    | '-' :: r => r
    | r => r
  if body = "inf".toList ∨ body = "nan".toList then readFloat? t
  else if (readWhole? (body.takeWhile isDigit)).isSome && isFraction (body.dropWhile isDigit) then
    readFloat? t
  else none

/-- A value that is a single word. -/
def readWord? (w : Text) : Option Setting :=
  if w = "true".toList then some (.boolean true)
  else if w = "false".toList then some (.boolean false)
  else
    match readInteger? w with
    | some n =>
      if Int64.minValue.toInt ≤ n ∧ n ≤ Int64.maxValue.toInt then some (.integer n) else none
    | none => (readReal? w).map .float

def endsWord (c : Char) : Bool :=
  isSpace c || c == '\n' || c == '\r' || c == ',' || c == ']' || c == '#'

mutual

/-- A value and what follows it; `fuel` is at least the length of the text. -/
def readValue? : (fuel : Nat) → Text → Option (Setting × Text)
  | 0, _ => none
  | _ + 1, '"' :: r => (readBasic? r).map fun (t, rest) => (.text t, rest)
  | _ + 1, '\'' :: r => (readLiteral? r).map fun (t, rest) => (.text t, rest)
  | n + 1, '[' :: r => (readItems? n r).map fun (l, rest) => (.list l, rest)
  | _ + 1, t =>
    (readWord? (t.takeWhile fun c => !endsWord c)).map fun v =>
      (v, t.dropWhile fun c => !endsWord c)

/-- The items up to a closing bracket; a comma may follow the last. -/
def readItems? : (fuel : Nat) → Text → Option (List Setting × Text)
  | 0, _ => none
  | n + 1, t =>
    match skipLines false t with
    | ']' :: r => some ([], r)
    | u =>
      match readValue? n u with
      | none => none
      | some (v, r) =>
        match skipLines false r with
        | ']' :: rest => some ([v], rest)
        | ',' :: rest => (readItems? n rest).map fun (vs, rest) => (v :: vs, rest)
        | _ => none

end

def isBareKeyChar (c : Char) : Bool := c.isAlphanum || c == '_' || c == '-'

def readKey? : Text → Option (Text × Text)
  | '"' :: r => readBasic? r
  | '\'' :: r => readLiteral? r
  | t =>
    let key := t.takeWhile isBareKeyChar
    if key = [] then none else some (key, t.dropWhile isBareKeyChar)

/-- Keys with points between them. -/
def readPath? : (fuel : Nat) → Text → Option (List Text × Text)
  | 0, _ => none
  | n + 1, t =>
    match readKey? (skipSpace t) with
    | none => none
    | some (key, r) =>
      match skipSpace r with
      | '.' :: rest => (readPath? n rest).map fun (keys, rest) => (key :: keys, rest)
      | rest => some ([key], rest)

def readStatement? : Text → Option (Statement × Text)
  | '[' :: r => do
    let (path, rest) ← readPath? (r.length + 1) r
    match rest with
    | ']' :: rest => some (.header path, rest)
    | _ => none
  | t => do
    let (path, rest) ← readPath? (t.length + 1) t
    match rest with
    | '=' :: r =>
      let (v, rest) ← readValue? (r.length + 1) (skipSpace r)
      some (.entry path v, rest)
    | _ => none

def readStatements? : (fuel : Nat) → Text → Option (List Statement)
  | 0, _ => none
  | _ + 1, [] => some []
  | n + 1, t =>
    match endLine? t with
    | some rest => readStatements? n rest
    | none => do
      let (s, rest) ← readStatement? (skipSpace t)
      let rest ← endLine? rest
      return s :: (← readStatements? n rest)

/-- The statements of a document, which may begin with a byte order mark. -/
def statements? (t : Text) : Option (List Statement) :=
  let t := if t.head? = some (Char.ofNat 0xFEFF) then t.drop 1 else t
  readStatements? (t.length + 1) t

end Document

end Courseware
