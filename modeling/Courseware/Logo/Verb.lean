import Courseware.Turtle

/-!
The verbs of Logo that are always known.
-/

namespace Courseware.Logo

/-- What the turtle can be told with numbers. -/
inductive Motion where
  | forward
  | back
  | left
  | right
  | setX
  | setY
  | setHeading
  | setPosition
  | setWidth
deriving DecidableEq

/-- How many numbers a motion takes. -/
def Motion.inputs : Motion → Nat
  | setPosition => 2
  | _ => 1

def Motion.apply : Motion → List Float → Turtle → Turtle
  | forward, [n], t => t.forward n
  | back, [n], t => t.back n
  | left, [n], t => t.left n
  | right, [n], t => t.right n
  | setX, [n], t => t.setX n
  | setY, [n], t => t.setY n
  | setHeading, [n], t => t.setHeading n
  | setPosition, [x, y], t => t.setPosition x y
  | setWidth, [n], t => t.setWidth n
  | _, _, t => t

/-- What the turtle can be told without numbers. -/
inductive Gesture where
  | penUp
  | penDown
  | home
  | clear
  | clean
  | hide
  | reveal
deriving DecidableEq

def Gesture.apply : Gesture → Turtle → Turtle
  | penUp, t => t.penUp
  | penDown, t => t.lowerPen
  | home, t => t.home
  | clear, t => t.clear
  | clean, t => t.clean
  | hide, t => t.setVisible false
  | reveal, t => t.setVisible true

inductive Verb where
  | motion (m : Motion)
  | position
  | gesture (g : Gesture)
  | color
  | print
  | make
  | repeatBlock
  | ifBlock
  | stop
  | define
deriving DecidableEq

namespace Verb

def names : List (Text × Verb) :=
  [("FD".toList, motion .forward), ("FORWARD".toList, motion .forward),
    ("BK".toList, motion .back), ("BACK".toList, motion .back),
    ("LT".toList, motion .left), ("LEFT".toList, motion .left), ("TURN".toList, motion .left),
    ("RT".toList, motion .right), ("RIGHT".toList, motion .right),
    ("SETX".toList, motion .setX), ("SETY".toList, motion .setY),
    ("SETH".toList, motion .setHeading), ("SETHEADING".toList, motion .setHeading),
    ("SETXY".toList, motion .setPosition), ("SETPOS".toList, position),
    ("PU".toList, gesture .penUp), ("PENUP".toList, gesture .penUp),
    ("PD".toList, gesture .penDown), ("PENDOWN".toList, gesture .penDown),
    ("HOME".toList, gesture .home), ("CS".toList, gesture .clear),
    ("CLEARSCREEN".toList, gesture .clear), ("CLEAN".toList, gesture .clean),
    ("HT".toList, gesture .hide), ("HIDETURTLE".toList, gesture .hide),
    ("ST".toList, gesture .reveal), ("SHOWTURTLE".toList, gesture .reveal),
    ("PC".toList, color), ("PENCOLOR".toList, color), ("SETCOLOR".toList, color),
    ("SETPENCOLOR".toList, color), ("PENSIZE".toList, motion .setWidth),
    ("SETPENSIZE".toList, motion .setWidth), ("PENWIDTH".toList, motion .setWidth),
    ("PR".toList, print), ("PRINT".toList, print), ("MAKE".toList, make),
    ("REPEAT".toList, repeatBlock), ("IF".toList, ifBlock), ("STOP".toList, stop),
    ("TO".toList, define)]

/-- The verb with a given name in capitals. -/
def ofName? (name : Text) : Option Verb := names.lookup name

end Verb

end Courseware.Logo
