import TurtleGraphics.Lexeme

/-! Tokens found by a loop over positions, in characters or in whatever units encode them. Every
slice is checked, and every round has to move on. -/
namespace TurtleGraphics

/-- What would stop a scan: a slice that leaves the input, or a round that stays where it is. -/
inductive Scan.Fault
  | outside (start stop : Nat)
  | stuck (position : Nat)
deriving DecidableEq, Repr

namespace Scan

/-- The units from `start` to before `stop`. -/
def slice {α : Type} (input : List α) (start stop : Nat) : Except Fault (List α) :=
  if start ≤ stop ∧ stop ≤ input.length then .ok ((input.drop start).take (stop - start))
  else .error (.outside start stop)

/-- Tells which lexeme a list of units starts with, if any. -/
abbrev Finder (α : Type) := List α → Except Fault (Option Lexeme.Match)

/-- Tries finders one after another, up to the first that finds something. -/
def first {α : Type} : List (Finder α) → Finder α
  | [], _ => .ok none
  | finder :: finders, input => do
    match ← finder input with
    | some m => return some m
    | none => first finders input

/-- What a scan keeps from round to round. A gap gives its token only when it ends. -/
structure State where
  position : Nat
  line : Nat
  inGap : Bool
  tokens : List Token
deriving DecidableEq, Repr

namespace State

def initial : State := ⟨0, 1, false, []⟩

def push (state : State) (kind : Token.Kind) : State :=
  { state with tokens := state.tokens ++ [⟨kind, state.line⟩] }

def skipLines (state : State) (newlines : Nat) : State :=
  { state with line := state.line + newlines }

def moveTo (state : State) (position : Nat) : State :=
  { state with position := position }

/-- Goes on through units that belong to no lexeme. -/
def extendGap (state : State) (units : Nat) : State :=
  { state with position := state.position + units, inGap := true }

def closeGap (state : State) : State :=
  if state.inGap then { state.push .unrecognized with inGap := false } else state

/-- Takes in a lexeme with so many line feeds in it. -/
def accept (state : State) (lexeme : Lexeme) (newlines : Nat) : State :=
  match lexeme with
  | .token kind => (state.push kind).skipLines newlines
  | .loop count =>
    ((state.push .loop).skipLines newlines).push (count.elim .unrecognized .number)
  | .blank => state.skipLines newlines

end State

/-- The tokens with the end of the input, which stands on the line of the last of them. -/
def withEnd (tokens : List Token) : List Token :=
  tokens ++ [⟨.endOfInput, (tokens.getLast?.map Token.line).getD 0⟩]

section Loop

variable {α : Type} (find : Finder α) (isNewline : α → Bool) (input : List α)

/-- One round: a lexeme is taken in whole, and where there is none the gap takes one unit. -/
def step (state : State) : Except Fault State := do
  match ← find (← slice input state.position input.length) with
  | some m =>
    let stop := state.position + m.length
    let taken ← slice input state.position stop
    return (state.closeGap.accept m.lexeme (taken.countP isNewline)).moveTo stop
  | none => return state.extendGap 1

/-- Rounds until the input is used up. One that did not move on would be repeated for ever. -/
def run (state : State) : Except Fault State :=
  if state.position < input.length then
    match step find isNewline input state with
    | .error fault => .error fault
    | .ok next =>
      if state.position < next.position then run next else .error (.stuck state.position)
  else .ok state
termination_by input.length - state.position

def tokens : Except Fault (List Token) :=
  (run find isNewline input .initial).map fun state => withEnd state.closeGap.tokens

end Loop

end Scan

end TurtleGraphics
