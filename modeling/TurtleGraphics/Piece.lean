import TurtleGraphics.Comment
import TurtleGraphics.Lexeme.Length

/-! A text cut into lexemes and the gaps between them, and the tokens these stand for. -/
namespace TurtleGraphics

/-- A stretch of text with the line it starts on. A gap holds no lexeme. -/
structure Piece where
  line : Nat
  text : List Char
  lexeme? : Option Lexeme
deriving DecidableEq, Repr

namespace Piece

def isGap (piece : Piece) : Bool :=
  piece.lexeme?.isNone

/-- Adds the gap `gap`, held last character first, to the pieces `done`, held last piece first. -/
def closeGap (line : Nat) (gap : List Char) (done : List Piece) : List Piece :=
  if gap.isEmpty then done else ⟨line, gap.reverse, none⟩ :: done

/-- Cuts a text that starts on `line`, after the pieces `done` and a gap still open. -/
def cutFrom (line : Nat) (gap : List Char) (done : List Piece) : List Char → List Piece
  | [] => (closeGap line gap done).reverse
  | c :: text =>
    match _h : Lexeme.match? (c :: text) with
    | none => cutFrom line (c :: gap) done text
    | some m =>
      let taken := (c :: text).take m.length
      cutFrom (line + taken.count '\n') [] (⟨line, taken, some m.lexeme⟩ :: closeGap line gap done)
        ((c :: text).drop m.length)
termination_by text => text.length
decreasing_by
  · simp
  · have := Lexeme.match?_pos _h
    simp only [List.length_drop, List.length_cons]
    omega

/-- The pieces of a text, in order. -/
def cut (text : List Char) : List Piece :=
  cutFrom 1 [] [] text

/-- The line on which what follows a piece starts. -/
def endLine (piece : Piece) : Nat :=
  piece.line + piece.text.count '\n'

/-- The count after a loop's keyword stands on the line where the piece ends. -/
def tokens (piece : Piece) : List Token :=
  match piece.lexeme? with
  | none => [⟨.unrecognized, piece.line⟩]
  | some (.token kind) => [⟨kind, piece.line⟩]
  | some (.loop count) =>
    [⟨.loop, piece.line⟩, ⟨count.elim .unrecognized .number, piece.endLine⟩]
  | some .blank => []

end Piece

/-- The pieces of a program's text, comments aside. -/
def Piece.ofText (text : String) : List Piece :=
  cut (Comment.remove text.toList)

/-- The tokens of a piece list, and the end of input on the line of the last of them. -/
def Token.ofPieces (pieces : List Piece) : List Token :=
  let tokens := pieces.flatMap Piece.tokens
  tokens ++ [⟨.endOfInput, (tokens.getLast?.map Token.line).getD 0⟩]

/-- The tokens of a program's text. Every text has some, since what is no token becomes an error
token. -/
def Token.ofText (text : String) : List Token :=
  ofPieces (Piece.ofText text)

end TurtleGraphics
