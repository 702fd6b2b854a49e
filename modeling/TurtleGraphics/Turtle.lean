import TurtleGraphics.Agent
import TurtleGraphics.Segment

/-! The turtle, an agent that draws a line wherever it moves with its pen down. -/
namespace TurtleGraphics

/-- The heading is in degrees counter-clockwise from the east and never reduced to one turn. -/
structure Turtle where
  position : Point
  heading : Int64
  penDown : Bool
  color : Color
  segments : Array Segment
deriving Repr

namespace Turtle

/-- At the origin, facing east, with the pen up. -/
def initial : Turtle := ⟨⟨0.0, 0.0⟩, 0, false, default, #[]⟩

def move (distance : Int64) (turtle : Turtle) : Turtle :=
  let stop := turtle.position.travel turtle.heading distance
  { turtle with
    position := stop
    segments :=
      if turtle.penDown then turtle.segments.push ⟨turtle.color, turtle.position, stop⟩
      else turtle.segments }

/-- Headings wrap around at 64 bits. -/
def turn (degrees : Int64) (turtle : Turtle) : Turtle :=
  { turtle with heading := turtle.heading + degrees }

def agent : Agent Turtle where
  move := move
  turn := turn
  penUp turtle := { turtle with penDown := false }
  penDown turtle := { turtle with penDown := true }
  setColor color turtle := { turtle with color }

theorem act_move (distance : Int64) (turtle : Turtle) :
    agent.act (.move distance) turtle = turtle.move distance := rfl

theorem toList_segments_move (distance : Int64) (turtle : Turtle) :
    (turtle.move distance).segments.toList = turtle.segments.toList ++
      if turtle.penDown then
        [⟨turtle.color, turtle.position, turtle.position.travel turtle.heading distance⟩]
      else [] := by
  cases hpen : turtle.penDown <;> simp [move, hpen]

theorem size_segments_move (distance : Int64) (turtle : Turtle) :
    (turtle.move distance).segments.size =
      turtle.segments.size + if turtle.penDown then 1 else 0 := by
  rw [← Array.length_toList, toList_segments_move, List.length_append]
  cases turtle.penDown <;> rfl

end Turtle

end TurtleGraphics
