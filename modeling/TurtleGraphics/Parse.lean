import TurtleGraphics.Parse.Scope
import TurtleGraphics.Piece
import TurtleGraphics.SyntaxError

/-! Programs read from tokens, one token at a time. -/
namespace TurtleGraphics

namespace Parse

/-- What the next token has to be. An instruction that lacks its period is reported on `line`, or
where the next token stands. -/
inductive Need
  | statement
  | amount (direction : Direction)
  | color
  | count
  | period (instruction : Instruction) (line : Option Nat)
deriving DecidableEq, Repr

structure State where
  need : Need
  scope : Scope
deriving DecidableEq, Repr

namespace State

def initial : State := ⟨.statement, .program []⟩

/-- The state after a token, unless the token fits no program. -/
def next? (state : State) (token : Token) : Option State :=
  match state.need, token.kind with
  | .statement, .move direction => some ⟨.amount direction, state.scope⟩
  | .statement, .penUp => some ⟨.period .penUp (some token.line), state.scope⟩
  | .statement, .penDown => some ⟨.period .penDown (some token.line), state.scope⟩
  | .statement, .color => some ⟨.color, state.scope⟩
  | .statement, .loop =>
    if state.scope.depth < nestingLimit then some ⟨.count, state.scope⟩ else none
  | .statement, .quote => state.scope.quote?.map (⟨.statement, ·⟩)
  | .amount direction, .number amount => some ⟨.period (.move direction amount) none, state.scope⟩
  | .color, .colorLiteral text => some ⟨.period (.setColor (.ofText text)) none, state.scope⟩
  | .count, .number count => some ⟨.statement, .bare count state.scope⟩
  | .period instruction _, .period => some ⟨.statement, state.scope.add (.leaf instruction)⟩
  | _, _ => none

/-- Why a token of this kind does not fit. -/
def cause (state : State) (kind : Token.Kind) : SyntaxError.Cause :=
  match state.need, state.scope, kind with
  | .period _ _, _, _ => .missingPeriod
  | .amount _, _, _ | .count, _, _ => .missingNumber
  | .color, _, _ => .missingColor
  | .statement, _, .loop => .nestedTooDeep
  | .statement, .quoted _ _ _, .endOfInput => .openLoop
  | .statement, .program (_ :: _), .quote => .surplus
  | .statement, _, _ => .missingStatement

/-- The error of a token that does not fit. -/
def refuse (state : State) (token : Token) : SyntaxError :=
  let line := match state.need with
    | .period _ (some line) => line
    | _ => token.line
  .ofToken (state.cause token.kind) line token

/-- The program, if the input may end here; `token` is the end of the input. -/
def finish (state : State) (token : Token) : Except SyntaxError Tree :=
  match state.need, state.scope with
  | .statement, .program done => .ok (.program done.reverse)
  | _, _ => .error (state.refuse token)

/-- Reads on from a state to the first end of input. A list without one ends past its last token.
-/
def parse (state : State) : List Token → Except SyntaxError Tree
  | [] => state.finish Token.pastEnd
  | token :: tokens =>
    if token.isEnd then state.finish token
    else match state.next? token with
      | some state => state.parse tokens
      | none => .error (state.refuse token)

end State

end Parse

namespace Tree

/-- The program that a token list spells, or its first token that no program has there. -/
def ofTokens (tokens : List Token) : Except SyntaxError Tree :=
  Parse.State.initial.parse tokens

def ofText (text : String) : Except SyntaxError Tree :=
  ofTokens (Token.ofText text)

end Tree

end TurtleGraphics
