import TurtleGraphics.Cursor
import TurtleGraphics.SyntaxError
import TurtleGraphics.Tree

/-! Programs read from tokens by a function for each phrase, which calls those for the phrases
inside. -/
namespace TurtleGraphics

namespace Descent

/-- What is read where fewer than `bound` tokens are left behind it. -/
structure Reading (α : Type) (bound : Nat) where
  value : α
  next : Cursor
  left_lt : next.left < bound

/-- The error that the current token makes. -/
def refusal (cause : SyntaxError.Cause) (cursor : Cursor) : SyntaxError :=
  .ofToken cause cursor.peek.line cursor.peek

theorem left_advance_lt_of_kind {cursor : Cursor} {kind : Token.Kind}
    (h : cursor.peek.kind = kind) (hkind : kind ≠ .endOfInput) :
    cursor.advance.2.left < cursor.left :=
  Cursor.left_advance_lt (Cursor.hasNext_of_kind h hkind)

def number (cursor : Cursor) : Except SyntaxError (Reading UInt32 cursor.left) :=
  match h : cursor.peek.kind with
  | .number value => .ok ⟨value, cursor.advance.2, left_advance_lt_of_kind h nofun⟩
  | _ => .error (refusal .missingNumber cursor)

def period (cursor : Cursor) : Except SyntaxError (Reading Unit cursor.left) :=
  if h : cursor.peek.kind = .period then
    .ok ⟨(), cursor.advance.2, left_advance_lt_of_kind h nofun⟩
  else .error (refusal .missingPeriod cursor)

/-- A pen command. If its period is missing, the error stands on the line of the command. -/
def pen (instruction : Instruction) (cursor : Cursor) :
    Except SyntaxError (Reading Tree cursor.left) :=
  let command := cursor.advance.1
  let next := cursor.advance.2
  if h : next.peek.kind = .period then
    .ok ⟨.leaf instruction, next.advance.2,
      Nat.lt_of_lt_of_le (left_advance_lt_of_kind h nofun) cursor.left_advance_le⟩
  else .error (.ofToken .missingPeriod command.line next.peek)

/-- The color of a color command, with its period. -/
def color (cursor : Cursor) : Except SyntaxError (Reading Tree cursor.left) :=
  match cursor.peek.kind with
  | .colorLiteral text => do
    let ⟨_, next, hnext⟩ ← period cursor.advance.2
    have := cursor.left_advance_le
    return ⟨.leaf (.setColor (.ofText text)), next, by omega⟩
  | _ => .error (refusal .missingColor cursor)

def movement (cursor : Cursor) : Except SyntaxError (Reading Tree cursor.left) :=
  match cursor.peek.kind with
  | .move direction => do
    let ⟨amount, dot, hdot⟩ ← number cursor.advance.2
    let ⟨_, next, hnext⟩ ← period dot
    have := cursor.left_advance_le
    return ⟨.leaf (.move direction amount), next, by omega⟩
  | _ => .error (refusal .missingStatement cursor)

mutual

/-- A statement inside of `depth` loops. -/
def statement (depth : Nat) (cursor : Cursor) : Except SyntaxError (Reading Tree cursor.left) :=
  have := cursor.left_advance_le
  match cursor.peek.kind with
  | .loop =>
    if depth = nestingLimit then .error (refusal .nestedTooDeep cursor)
    else do
      let ⟨count, start, hstart⟩ ← number cursor.advance.2
      let ⟨body, next, hnext⟩ ← body (depth + 1) start
      return ⟨.loop count body, next, by omega⟩
  | .penUp => pen .penUp cursor
  | .penDown => pen .penDown cursor
  | .color => do
    let ⟨tree, next, hnext⟩ ← color cursor.advance.2
    return ⟨tree, next, by omega⟩
  | _ => movement cursor
termination_by (cursor.left, 0)

/-- The body of a loop, in quotes or a statement. -/
def body (depth : Nat) (cursor : Cursor) : Except SyntaxError (Reading Tree cursor.left) :=
  if h : cursor.peek.kind = .quote then do
    have := left_advance_lt_of_kind h nofun
    let ⟨body, next, hnext⟩ ← expression depth cursor.advance.2
    if next.peek.kind = .quote then
      return ⟨body, next.advance.2, by have := next.left_advance_le; omega⟩
    else throw (refusal .openLoop next)
  else statement depth cursor
termination_by (cursor.left, 3)

/-- Statements up to the end of the input or a quote, perhaps none up to the end. -/
def expression (depth : Nat) (cursor : Cursor) :
    Except SyntaxError (Reading Tree (cursor.left + 1)) :=
  if cursor.peek.isEnd then return ⟨.endMarker, cursor, Nat.lt_succ_self _⟩
  else do
    let ⟨tree, next, hnext⟩ ← statements depth [] cursor
    return ⟨tree, next, by omega⟩
termination_by (cursor.left, 2)

/-- Statements one after another, behind those of `done`, the last of which is its first. -/
def statements (depth : Nat) (done : List Tree) (cursor : Cursor) :
    Except SyntaxError (Reading Tree cursor.left) := do
  let ⟨tree, next, hnext⟩ ← statement depth cursor
  let done := tree :: done
  match next.peek.kind with
  | .endOfInput => return ⟨.program done.reverse, next, hnext⟩
  | .quote => return ⟨(Tree.body? done.reverse).getD .endMarker, next, hnext⟩
  | _ =>
    let ⟨tree, last, hlast⟩ ← statements depth done next
    return ⟨tree, last, by omega⟩
termination_by (cursor.left, 1)

end

end Descent

/-- The program that a token list spells, up to its first end of input. -/
def Tree.descend (tokens : List Token) : Except SyntaxError Tree := do
  let ⟨program, next, _⟩ ← Descent.expression 0 ⟨tokens⟩
  if next.peek.isEnd then return program
  else throw (Descent.refusal .surplus next)

end TurtleGraphics
