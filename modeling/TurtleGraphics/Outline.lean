import TurtleGraphics.Text.Quoted
import TurtleGraphics.Tree

/-! Trees shown part by part, on one line or with a line for each part. -/
namespace TurtleGraphics

/-- A word, a named wrapper around one part, or a named record of two fields. -/
inductive Outline
  | word (text : String)
  | wrap (name : String) (part : Outline)
  | record (name field₁ : String) (value₁ : Outline) (field₂ : String) (value₂ : Outline)
deriving DecidableEq, Repr

namespace Outline

/-- Appends the outline to `out` on one line. -/
def appendCompact (out : String) : Outline → String
  | word text => out ++ text
  | wrap name part => part.appendCompact (out ++ name ++ "(") ++ ")"
  | record name field₁ value₁ field₂ value₂ =>
    let out := value₁.appendCompact (out ++ name ++ " \x7b " ++ field₁ ++ ": ")
    value₂.appendCompact (out ++ ", " ++ field₂ ++ ": ") ++ " \x7d"

/-- Goes to a new line, four columns in for each level. -/
def newLine (depth : Nat) (out : String) : String :=
  (out.push '\n').pushn ' ' (4 * depth)

/-- Appends the outline to `out`, each part on its own line with a comma after it. -/
def appendIndented (depth : Nat) (out : String) : Outline → String
  | word text => out ++ text
  | wrap name part =>
    let out := part.appendIndented (depth + 1) (newLine (depth + 1) (out ++ name ++ "("))
    newLine depth (out ++ ",") ++ ")"
  | record name field₁ value₁ field₂ value₂ =>
    let out := newLine (depth + 1) (out ++ name ++ " \x7b") ++ field₁ ++ ": "
    let out := value₁.appendIndented (depth + 1) out ++ ","
    let out := value₂.appendIndented (depth + 1) (newLine (depth + 1) out ++ field₂ ++ ": ")
    newLine depth (out ++ ",") ++ "\x7d"

def compact (outline : Outline) : String :=
  outline.appendCompact ""

def indented (outline : Outline) : String :=
  outline.appendIndented 0 ""

end Outline

def Color.outline (color : Color) : Outline :=
  .wrap "Color" (.word (Text.quoted color.text))

def Instruction.outline : Instruction → Outline
  | move direction amount =>
    .record "Move" "direction" (.word direction.name) "amount" (.word amount.toNat.repr)
  | penUp => .wrap "Single" (.word "PenUp")
  | penDown => .wrap "Single" (.word "PenDown")
  | setColor color => .wrap "Single" (.wrap "SetColor" color.outline)
  | endMarker => .wrap "Single" (.word "End")

def Tree.outline : Tree → Outline
  | seq current rest =>
    .record "Sequence" "current" current.outline "rest" (.wrap "Some" rest.outline)
  | last current => .record "Sequence" "current" current.outline "rest" (.word "None")
  | loop count body => .record "Repeat" "count" (.word count.toNat.repr) "body" body.outline
  | leaf instruction => instruction.outline

end TurtleGraphics
