/-! The four ways a movement goes. -/
namespace TurtleGraphics

inductive Direction
  | forward
  | backward
  | left
  | right
deriving DecidableEq, Repr

namespace Direction

/-- The word a program writes. -/
def keyword : Direction → String
  | forward => "FORWARD"
  | backward => "BACKWARD"
  | left => "LEFT"
  | right => "RIGHT"

/-- The name that outlines and journals use. -/
def name : Direction → String
  | forward => "Forward"
  | backward => "Backward"
  | left => "TurnLeft"
  | right => "TurnRight"

end Direction

end TurtleGraphics
