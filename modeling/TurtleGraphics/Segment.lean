import TurtleGraphics.Color
import TurtleGraphics.Coordinate

/-! Points of the drawing plane and the lines between them. -/
namespace TurtleGraphics

structure Point where
  x : Float
  y : Float
deriving BEq, Repr

/-- The point `distance` away along `heading`, in degrees counter-clockwise from the east. -/
def Point.travel (start : Point) (heading distance : Int64) : Point :=
  let theta := 3.141592653589793 * heading.toFloat / 180.0
  ⟨start.x + distance.toFloat * theta.cos, start.y + distance.toFloat * theta.sin⟩

structure Segment where
  color : Color
  start : Point
  stop : Point
deriving Repr

/-- The color and the four coordinates, with `places` decimals each if given. -/
def Segment.text (segment : Segment) (places : Option Nat) : String :=
  " ".intercalate (segment.color.text ::
    [segment.start.x, segment.start.y, segment.stop.x, segment.stop.y].map (Coordinate.text places))

end TurtleGraphics
