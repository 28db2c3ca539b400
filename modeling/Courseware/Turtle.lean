import Courseware.Number.Binary
import Courseware.Text.Basic

/-!
The turtle. It starts at the origin with heading 0, which points along the first axis; angles
grow counter-clockwise. A move with the pen down draws a segment.
-/

namespace Courseware

open Number

structure Point where
  x : Float := 0
  y : Float := 0

structure Segment where
  origin : Point
  target : Point
  color : Text
  width : Float

structure Turtle where
  position : Point := {}
  /-- Degrees, normally from 0 up to 360. -/
  heading : Float := 0
  penDown : Bool := true
  color : Text := "black".toList
  width : Float := 1
  visible : Bool := true
  segments : Array Segment := #[]

namespace Turtle

instance : Inhabited Turtle := ⟨{}⟩

/-- The colors that can be chosen by number. -/
def palette : List Text :=
  ["black".toList, "blue".toList, "red".toList, "green".toList, "yellow".toList,
    "magenta".toList, "cyan".toList, "white".toList, "gray".toList, "orange".toList,
    "purple".toList, "brown".toList, "pink".toList, "lightblue".toList, "lightgreen".toList]

/-- The unit vector of a heading, exact along the axes. -/
def direction (heading : Float) : Point :=
  if heading == 0 then ⟨1, 0⟩
  else if heading == 90 then ⟨0, 1⟩
  else if heading == 180 then ⟨-1, 0⟩
  else if heading == 270 then ⟨0, -1⟩
  else ⟨(radians heading).cos, (radians heading).sin⟩

def moveTo (t : Turtle) (p : Point) : Turtle :=
  if t.penDown then
    { t with position := p, segments := t.segments.push ⟨t.position, p, t.color, t.width⟩ }
  else { t with position := p }

def forward (t : Turtle) (distance : Float) : Turtle :=
  let d := direction t.heading
  t.moveTo ⟨t.position.x + distance * d.x, t.position.y + distance * d.y⟩

def back (t : Turtle) (distance : Float) : Turtle := t.forward (-distance)

def setHeading (t : Turtle) (degrees : Float) : Turtle :=
  { t with heading := wrap degrees 360 }

def left (t : Turtle) (degrees : Float) : Turtle := t.setHeading (t.heading + degrees)

def right (t : Turtle) (degrees : Float) : Turtle := t.left (-degrees)

def setPosition (t : Turtle) (x y : Float) : Turtle := t.moveTo ⟨x, y⟩

def setX (t : Turtle) (x : Float) : Turtle := t.moveTo ⟨x, t.position.y⟩

def setY (t : Turtle) (y : Float) : Turtle := t.moveTo ⟨t.position.x, y⟩

def penUp (t : Turtle) : Turtle := { t with penDown := false }

def lowerPen (t : Turtle) : Turtle := { t with penDown := true }

def setColor (t : Turtle) (color : Text) : Turtle := { t with color := color }

/-- Chooses a color of the palette; numbers beyond its ends wrap around. -/
def setColorIndex (t : Turtle) (n : Int64) : Turtle :=
  t.setColor (palette.getD (n.toInt % palette.length).toNat [])

/-- The pen is never thinner than 1. -/
def setWidth (t : Turtle) (w : Float) : Turtle :=
  { t with width := if w.isFinite && 1 < w then w else 1 }

def setVisible (t : Turtle) (b : Bool) : Turtle := { t with visible := b }

/-- Back to the origin and to heading 0, without drawing. -/
def home (t : Turtle) : Turtle := { t with position := {}, heading := 0 }

/-- Erases the drawing. -/
def clean (t : Turtle) : Turtle := { t with segments := #[] }

/-- Erases the drawing and goes home; the pen stays as it is. -/
def clear (t : Turtle) : Turtle := t.clean.home

end Turtle

end Courseware
