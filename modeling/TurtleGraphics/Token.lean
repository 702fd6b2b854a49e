import TurtleGraphics.Direction

/-! Tokens of the drawing language, each with the line it stands on. -/
namespace TurtleGraphics

/-- What a token is. Text that is no token of the language is `unrecognized`. -/
inductive Token.Kind
  | move (direction : Direction)
  | penUp
  | penDown
  | color
  | loop
  | period
  | quote
  | number (value : UInt32)
  | colorLiteral (text : String)
  | unrecognized
  | endOfInput
deriving DecidableEq, Repr

structure Token where
  kind : Token.Kind
  line : Nat
deriving DecidableEq, Repr

namespace Token

/-- The words that token lists and error messages use. -/
def Kind.text : Kind → String
  | move direction => "'" ++ direction.keyword ++ "'"
  | penUp => "'UP'"
  | penDown => "'DOWN'"
  | color => "'COLOR'"
  | loop => "'REPEAT'"
  | period => "'.'"
  | quote => "'\"'"
  | number value => "number " ++ value.toNat.repr
  | colorLiteral text => "color " ++ text
  | unrecognized => "unrecognized input"
  | endOfInput => "end of input"

def number? (token : Token) : Option UInt32 :=
  match token.kind with
  | .number value => some value
  | _ => none

/-- The color literal as written. -/
def color? (token : Token) : Option String :=
  match token.kind with
  | .colorLiteral text => some text
  | _ => none

def isEnd (token : Token) : Bool :=
  token.kind = .endOfInput

/-- A line of a token list. -/
def text (token : Token) : String :=
  token.line.repr ++ ": " ++ token.kind.text

/-- What stands after the last token of a list. -/
def pastEnd : Token := ⟨.endOfInput, 0⟩

end Token

end TurtleGraphics
