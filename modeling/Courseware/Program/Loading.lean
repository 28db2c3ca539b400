import Courseware.Program.Basic

/-!
Reading a program text. Blank lines and comments are dropped; labels, line numbers,
procedures and data are then indexed by the places of the lines that were kept.
-/

namespace Courseware

open Text

inductive LoadError where
  | duplicateLabel (name : Text) (first second : Nat)
deriving DecidableEq

def LoadError.message : LoadError → String
  | duplicateLabel n first second =>
    s!"duplicate label `{Text.str n}` on lines {first} and {second}"

namespace Line

/-- Splits off a line number that white space or the end of the line follows. -/
def splitNumber (t : Text) : Option Nat × Text :=
  let digits := t.takeWhile Number.isDigit
  let rest := t.dropWhile Number.isDigit
  if digits = [] ∨ rest.head?.any (!isBlank ·) then (none, t)
  else
    match Program.readLineNumber? digits with
    | some n => (some n, trim rest)
    | none => (none, t)

/-- A comment begins with a comment sign or with the word `REM`. -/
def isComment (t : Text) : Bool :=
  match t with
  | '#' :: _ => true
  | '/' :: '/' :: _ => true
  | ';' :: _ => true
  | '\'' :: _ => true
  | _ => sameWord (firstWord t) "REM".toList

/-- The line at a place of the source text, unless there is nothing in it to execute. -/
def read? (sourceLine : Nat) (raw : Text) : Option Line :=
  let t := trim raw
  if t = [] then none
  else
    match splitNumber t with
    | (none, body) => if isComment body then none else some ⟨sourceLine, none, body⟩
    | (some n, body) => if body = [] then none else some ⟨sourceLine, some n, body⟩

/-- The lines of a source text that are kept. -/
def readAll (source : Text) : List Line :=
  (lines source).zipIdx.filterMap fun (raw, i) => read? (i + 1) raw

/-- The label that a line declares. -/
def label? (l : Line) : Option Text :=
  let name? := fun (rest : Text) =>
    let n := canonical rest
    if n = [] then none else some n
  match l.text with
  | 'L' :: ':' :: rest => name? rest
  | 'l' :: ':' :: rest => name? rest
  | _ => none

/-- The name and the parameters of a procedure that a line opens. -/
def opens? (l : Line) : Option (Text × List Text) :=
  match words l.text with
  | keyword :: name :: params =>
    if sameWord keyword "TO".toList then
      some (upper name,
        (params.map fun p => upper (p.dropWhile (· == ':'))).filter (· ≠ []))
    else none
  | _ => none

/-- Whether a line ends a procedure. -/
def closes (l : Line) : Bool := sameWord l.text "END".toList

end Line

namespace Program

/-- Adds the labels of lines, given with their places; a label may be declared only once. -/
def indexLabels (all : List Line) (labels : Table Nat) :
    List (Line × Nat) → Except LoadError (Table Nat)
  | [] => .ok labels
  | (l, i) :: rest =>
    match l.label? with
    | none => indexLabels all labels rest
    | some n =>
      match labels.get? n with
      | some first =>
        .error (.duplicateLabel n ((all[first]?).elim 0 (·.sourceLine)) l.sourceLine)
      | none => indexLabels all (labels.insert n i) rest

/-- Sets the entry of a number in a list that is ordered by numbers. -/
def insertNumber (n i : Nat) : List (Nat × Nat) → List (Nat × Nat)
  | [] => [(n, i)]
  | (m, j) :: r =>
    if n < m then (n, i) :: (m, j) :: r
    else if n = m then (n, i) :: r
    else (m, j) :: insertNumber n i r

/-- The places of line numbers; of two lines with one number the later counts. -/
def indexNumbers (ls : List Line) : List (Nat × Nat) :=
  ls.zipIdx.foldl (fun table (l, i) =>
    match l.number with
    | some n => insertNumber n i table
    | none => table) []

/-- Adds the procedures that lines from place `i` on define. A definition reaches to the next
`END` line, or to the last line; of two definitions of one name the later counts. -/
def indexProcedures (i : Nat) (ls : List Line) (table : Table Procedure) : Table Procedure :=
  match ls with
  | [] => table
  | l :: rest =>
    match l.opens? with
    | none => indexProcedures (i + 1) rest table
    | some (name, params) =>
      let body := rest.takeWhile (!·.closes)
      let finish := if body.length < rest.length then i + body.length + 1 else i + body.length
      indexProcedures (finish + 1) (rest.drop (body.length + 1))
        (table.insert name ⟨name, params, body.map (·.text), i, finish⟩)
termination_by ls.length
decreasing_by
  · simp
  · simp only [List.length_cons, List.length_drop]
    omega

/-- The items of a data line between commas outside quotes, with whether quotes occurred in
them. Quotes themselves are left out. -/
def splitItems (quoted marked : Bool) (current : Text) : Text → List (Text × Bool)
  | [] => [(current.reverse, marked)]
  | c :: t =>
    if c = '"' then splitItems (!quoted) true current t
    else if c = ',' ∧ !quoted then (current.reverse, marked) :: splitItems false false [] t
    else splitItems quoted marked (c :: current) t

/-- A quoted item is always a text. -/
def itemValue : Text × Bool → Value
  | (t, true) => .text (trim t)
  | (t, false) => Value.ofInput t

/-- The values on a data line. A line without any item gives none. -/
def dataItems (t : Text) : List Value :=
  match splitItems false false [] t with
  | [(item, false)] => if isBlankText item then [] else [itemValue (item, false)]
  | items => items.map itemValue

/-- The data that a line holds. -/
def lineData (l : Line) : List Value :=
  let w := firstWord l.text
  if sameWord w "DATA".toList then dataItems (trim (l.text.drop w.length)) else []

/-- The program of a source text. -/
def load (source : Text) : Except LoadError Program :=
  let ls := Line.readAll source
  match indexLabels ls {} ls.zipIdx with
  | .error e => .error e
  | .ok labels =>
    .ok {
      lines := ls
      labels := labels
      numbers := indexNumbers ls
      procedures := indexProcedures 0 ls {}
      data := ls.flatMap lineData }

end Program

end Courseware
