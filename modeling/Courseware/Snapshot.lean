import Courseware.Engine.Basic
import Courseware.Number.Layout

/-!
The state of an engine as an indented JSON text.
-/

namespace Courseware

/-- A JSON value, with numbers as they are written. -/
inductive Tree where
  | boolean (b : Bool)
  | number (t : Text)
  | text (t : Text)
  | list (items : List Tree)
  | record (fields : List (String × Tree))

namespace Tree

def hexDigit (n : Nat) : Char := Char.ofNat (if n < 10 then 48 + n else 87 + n)

/-- Only quotes, backslashes and control characters are escaped. -/
def escaped (c : Char) : Text :=
  if c == '"' then ['\\', '"']
  else if c == '\\' then ['\\', '\\']
  else if c == '\n' then ['\\', 'n']
  else if c == '\r' then ['\\', 'r']
  else if c == '\t' then ['\\', 't']
  else if c.toNat == 8 then ['\\', 'b']
  else if c.toNat == 12 then ['\\', 'f']
  else if c.toNat < 32 then
    ['\\', 'u', '0', '0', hexDigit (c.toNat / 16), hexDigit (c.toNat % 16)]
  else [c]

def quoted (t : Text) : Text := '"' :: t.flatMap escaped ++ ['"']

/-- A new line with an indent of `depth` levels. -/
def newLine (depth : Nat) : Text := '\n' :: List.replicate (2 * depth) ' '

mutual

/-- The text of a value inside `depth` others. -/
def render (depth : Nat) : Tree → Text
  | boolean b => if b then "true".toList else "false".toList
  | number t => t
  | text t => quoted t
  | list items =>
    if items.isEmpty then ['[', ']']
    else '[' :: renderItems (depth + 1) items ++ newLine depth ++ [']']
  | record fields =>
    if fields.isEmpty then ['\x7b', '\x7d']
    else '\x7b' :: renderFields (depth + 1) fields ++ newLine depth ++ ['\x7d']

def renderItems (depth : Nat) : List Tree → Text
  | [] => []
  | [t] => newLine depth ++ render depth t
  | t :: ts => newLine depth ++ render depth t ++ ',' :: renderItems depth ts

def renderFields (depth : Nat) : List (String × Tree) → Text
  | [] => []
  | [(name, t)] => newLine depth ++ quoted name.toList ++ ':' :: ' ' :: render depth t
  | (name, t) :: fs =>
    newLine depth ++ quoted name.toList ++ ':' :: ' ' :: render depth t ++
      ',' :: renderFields depth fs

end

def ofFloat (x : Float) : Tree := number (Number.dumped x)

def ofNat (n : Nat) : Tree := number (Number.decimal n)

def ofValue : Value → Tree
  | .integer n =>
    record [("t", text "Integer".toList), ("v", number (Number.signedDecimal n.toInt))]
  | .float x => record [("t", text "Float".toList), ("v", ofFloat x)]
  | .text t => record [("t", text "Text".toList), ("v", text t)]

def ofPoint (p : Point) : Tree := record [("x", ofFloat p.x), ("y", ofFloat p.y)]

def ofSegment (s : Segment) : Tree :=
  record [("from", ofPoint s.origin), ("to", ofPoint s.target), ("color", text s.color),
    ("width", ofFloat s.width)]

def ofTurtle (t : Turtle) : Tree :=
  record [("position", ofPoint t.position), ("heading", ofFloat t.heading),
    ("pen_down", boolean t.penDown), ("color", text t.color), ("width", ofFloat t.width),
    ("visible", boolean t.visible), ("segments", list (t.segments.toList.map ofSegment))]

def ofEngine (e : Engine) : Tree :=
  record [
    ("variables", record (e.machine.vars.entries.map fun (n, v) => (Text.str n, ofValue v))),
    ("turtle", ofTurtle e.machine.turtle),
    ("cursor", record [("index", ofNat e.index), ("running", boolean e.running),
      ("iteration_count", ofNat e.machine.used)])]

end Tree

/-- The variables, the turtle and the place of an engine. -/
def Engine.snapshot (e : Engine) : Text := (Tree.ofEngine e).render 0

end Courseware
