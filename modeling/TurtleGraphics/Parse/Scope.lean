import TurtleGraphics.Tree

/-! What is open around a statement while a program is read. -/
namespace TurtleGraphics.Parse

/-- The program or the body of a loop, in quotes or bare. What has been read of it is held last
statement first; a bare body is done with its first. -/
inductive Scope
  | program (done : List Tree)
  | quoted (count : UInt32) (done : List Tree) (outer : Scope)
  | bare (count : UInt32) (outer : Scope)
deriving DecidableEq, Repr

namespace Scope

/-- The number of loops around a statement. -/
def depth : Scope → Nat
  | program _ => 0
  | quoted _ _ outer | bare _ outer => outer.depth + 1

/-- Takes a finished statement in. If that finishes a bare loop, the loop goes to the scope around
it. -/
def add : Scope → Tree → Scope
  | program done, statement => program (statement :: done)
  | quoted count done outer, statement => quoted count (statement :: done) outer
  | bare count outer, statement => outer.add (.loop count statement)

/-- A quote opens the body of a loop that has not begun, and closes a body that holds a statement.
-/
def quote? : Scope → Option Scope
  | program _ => none
  | quoted count done outer =>
    (Tree.body? done.reverse).map fun body => outer.add (.loop count body)
  | bare count outer => some (quoted count [] outer)

end Scope

end TurtleGraphics.Parse
