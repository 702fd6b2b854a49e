import TurtleGraphics.Token

/-! Why a token list is no program. -/
namespace TurtleGraphics

/-- No statement lies in more loops than this. -/
def nestingLimit : Nat := 256

inductive SyntaxError.Cause
  | missingPeriod
  | missingNumber
  | missingColor
  | openLoop
  | missingStatement
  | surplus
  | unrecognized
  | nestedTooDeep
deriving DecidableEq, Repr

structure SyntaxError where
  cause : SyntaxError.Cause
  line : Nat
  found : Token.Kind
deriving DecidableEq, Repr

namespace SyntaxError

def Cause.text : Cause → String
  | missingPeriod => "expected '.'"
  | missingNumber => "expected a number"
  | missingColor => "expected a color"
  | openLoop => "expected '\"' to close the loop body"
  | missingStatement => "expected a statement"
  | surplus => "unexpected input after the program"
  | unrecognized => "unrecognized input"
  | nestedTooDeep => "loops nested more than " ++ nestingLimit.repr ++ " deep"

/-- Unrecognized input has no name to give as found. -/
def message (error : SyntaxError) : String :=
  "syntax error on line " ++ error.line.repr ++ ": " ++
    match error.cause with
    | .unrecognized => error.cause.text
    | cause => cause.text ++ ", found " ++ error.found.text

/-- The error that a token makes. A token that is no part of the language makes the same one
wherever it stands. -/
def ofToken (cause : Cause) (line : Nat) (token : Token) : SyntaxError :=
  ⟨if token.kind = .unrecognized then .unrecognized else cause, line, token.kind⟩

end SyntaxError

end TurtleGraphics
