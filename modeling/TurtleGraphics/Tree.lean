import TurtleGraphics.Color
import TurtleGraphics.Direction

/-! Programs as trees: statements along a spine, loops around bodies. -/
namespace TurtleGraphics

universe u

/-- A statement without statements inside. The end marker does nothing; it closes a program. -/
inductive Instruction
  | move (direction : Direction) (amount : UInt32)
  | penUp
  | penDown
  | setColor (color : Color)
  | endMarker
deriving DecidableEq, Repr

/-- A spine runs through `seq` and may stop with `last`, after which nothing follows. -/
inductive Tree
  | seq (current rest : Tree)
  | last (current : Tree)
  | loop (count : UInt32) (body : Tree)
  | leaf (instruction : Instruction)
deriving DecidableEq, Repr

namespace Tree

def endMarker : Tree := leaf .endMarker

/-- Statements on a spine that ends in the end marker. -/
def program (statements : List Tree) : Tree :=
  statements.foldr seq endMarker

/-- Statements on a spine after whose last nothing follows, as in a loop's quotes. No statements
make no spine. -/
def body? (statements : List Tree) : Option Tree :=
  statements.foldr (fun current rest => some (rest.elim (last current) (seq current))) none

def isEnd : Tree → Bool
  | leaf .endMarker => true
  | _ => false

def isSpine : Tree → Bool
  | seq _ _ | last _ => true
  | loop _ _ | leaf _ => false

/-- The statements along the spine, without end markers. A tree that is no spine is its own one
statement. -/
def statements : Tree → List Tree
  | seq current rest => if current.isEnd then rest.statements else current :: rest.statements
  | last current => if current.isEnd then [] else [current]
  | tree => if tree.isEnd then [] else [tree]

/-- Visits the instructions in order, those of a loop's body as often as it counts. -/
def walk {σ : Type u} (visit : Instruction → σ → σ) : Tree → σ → σ
  | seq current rest, state => rest.walk visit (current.walk visit state)
  | last current, state => current.walk visit state
  | loop count body, state => Nat.repeat (body.walk visit) count.toNat state
  | leaf instruction, state => visit instruction state

end Tree

end TurtleGraphics
