import TurtleGraphics.Token

/-! A reader over a token list that never runs dry. -/
namespace TurtleGraphics

/-- The tokens still to be read. -/
structure Cursor where
  remaining : List Token
deriving DecidableEq, Repr

namespace Cursor

def hasNext (cursor : Cursor) : Bool :=
  !cursor.remaining.isEmpty

/-- The current token; past the end this is an end of input on line 0. -/
def peek (cursor : Cursor) : Token :=
  cursor.remaining.headD Token.pastEnd

/-- Gives the current token and moves past it, at the end not at all. -/
def advance (cursor : Cursor) : Token × Cursor :=
  (cursor.peek, ⟨cursor.remaining.tail⟩)

/-- The number of tokens still to be read. -/
def left (cursor : Cursor) : Nat :=
  cursor.remaining.length

variable {cursor : Cursor} {kind : Token.Kind}

/-- Only an end of input is read where nothing is left. -/
theorem hasNext_of_kind (h : cursor.peek.kind = kind) (hkind : kind ≠ .endOfInput) :
    cursor.hasNext = true := by
  obtain ⟨tokens⟩ := cursor
  cases tokens with
  | nil => exact (hkind h.symm).elim
  | cons token tokens => rfl

theorem left_advance_lt (h : cursor.hasNext = true) : cursor.advance.2.left < cursor.left := by
  obtain ⟨tokens⟩ := cursor
  cases tokens with
  | nil => cases h
  | cons token tokens => exact Nat.lt_succ_self tokens.length

theorem left_advance_le (cursor : Cursor) : cursor.advance.2.left ≤ cursor.left := by
  obtain ⟨tokens⟩ := cursor
  cases tokens with
  | nil => exact Nat.le_refl 0
  | cons token tokens => exact Nat.le_succ tokens.length

end Cursor

end TurtleGraphics
