import TurtleGraphics.Parse

/-! Programs run on anything that can move, turn and draw. -/
namespace TurtleGraphics

universe u

/-- One thing an agent is told. -/
inductive Action
  | move (distance : Int64)
  | turn (degrees : Int64)
  | penUp
  | penDown
  | setColor (color : Color)
deriving DecidableEq, Repr

/-- What a drawing agent with states `σ` does with each action. Negative distances go backward,
positive degrees turn left. -/
structure Agent (σ : Type u) where
  move : Int64 → σ → σ
  turn : Int64 → σ → σ
  penUp : σ → σ
  penDown : σ → σ
  setColor : Color → σ → σ

namespace Agent

variable {σ : Type u}

def act (agent : Agent σ) : Action → σ → σ
  | .move distance => agent.move distance
  | .turn degrees => agent.turn degrees
  | .penUp => agent.penUp
  | .penDown => agent.penDown
  | .setColor color => agent.setColor color

/-- The end marker leaves every agent as it is. -/
def perform (agent : Agent σ) : Instruction → σ → σ
  | .move .forward amount => agent.move (Int64.ofNat amount.toNat)
  | .move .backward amount => agent.move (-Int64.ofNat amount.toNat)
  | .move .left amount => agent.turn (Int64.ofNat amount.toNat)
  | .move .right amount => agent.turn (-Int64.ofNat amount.toNat)
  | .penUp => agent.penUp
  | .penDown => agent.penDown
  | .setColor color => agent.setColor color
  | .endMarker => id

def evaluate (agent : Agent σ) (tree : Tree) (state : σ) : σ :=
  tree.walk agent.perform state

/-- Runs a program's text and gives what came of it and the state it left the agent in. Nothing
reaches the agent unless all of the text is a program. -/
def execute (agent : Agent σ) (text : String) (state : σ) : Except SyntaxError Unit × σ :=
  match Tree.ofText text with
  | .ok tree => (.ok (), agent.evaluate tree state)
  | .error error => (.error error, state)

/-- The state that a program's text leaves the agent in, unless the text is no program. -/
def run (agent : Agent σ) (text : String) (state : σ) : Except SyntaxError σ :=
  let (outcome, state) := agent.execute text state
  outcome.map fun _ => state

/-- The agent that remembers what it is told. -/
def recorder : Agent (Array Action) where
  move distance actions := actions.push (.move distance)
  turn degrees actions := actions.push (.turn degrees)
  penUp actions := actions.push .penUp
  penDown actions := actions.push .penDown
  setColor color actions := actions.push (.setColor color)

end Agent

end TurtleGraphics
