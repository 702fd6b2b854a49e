import TurtleGraphics.Tree

/-! Trees as program text, one statement of the program to a line. -/
namespace TurtleGraphics

/-- The end marker has no text. -/
def Instruction.source : Instruction → String
  | move direction amount => direction.keyword ++ " " ++ amount.toNat.repr ++ "."
  | penUp => "UP."
  | penDown => "DOWN."
  | setColor color => "COLOR " ++ color.text ++ "."
  | endMarker => ""

namespace Tree

/-- Makes one quoted text of the statements of a spine. -/
def enclose (tree : Tree) (texts : List String) : List String :=
  if tree.isSpine then ["\"" ++ " ".intercalate texts ++ "\""] else texts

/-- The text of each of the tree's statements. -/
def statementSources : Tree → List String
  | seq current rest => current.enclose current.statementSources ++ rest.statementSources
  | last current => current.enclose current.statementSources
  | loop count body =>
    ["REPEAT " ++ count.toNat.repr ++ " " ++ .join (body.enclose body.statementSources)]
  | leaf .endMarker => []
  | leaf instruction => [instruction.source]

/-- The program text of a tree. -/
def source (tree : Tree) : String :=
  .join (tree.statementSources.map (· ++ "\n"))

end Tree

end TurtleGraphics
