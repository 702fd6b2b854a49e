import TurtleGraphics.Agent
import TurtleGraphics.Outline

/-! What a run notes down about itself. -/
namespace TurtleGraphics

universe u v

/-- How much detail an entry is, from the least. -/
inductive Level
  | info
  | debug
  | trace
deriving DecidableEq, Repr

def Level.name : Level → String
  | info => "INFO"
  | debug => "DEBUG"
  | trace => "TRACE"

/-- The activity that makes a note. -/
inductive Origin
  | reading
  | parsing
  | evaluation
  | command
deriving DecidableEq, Repr

/-- The name that a line of the journal gives. -/
def Origin.name : Origin → String
  | reading => "turtle_lang::lexer"
  | parsing => "turtle_lang::parser"
  | evaluation => "turtle_lang::eval"
  | command => "turtle"

structure Entry where
  level : Level
  origin : Origin
  message : String
deriving DecidableEq, Repr

namespace Journal

def gap (piece : Piece) : Entry :=
  ⟨.debug, .reading, "unrecognized input on line " ++ piece.line.repr⟩

def tokenCount (tokens : List Token) : Entry :=
  ⟨.debug, .reading, "tokenized " ++ tokens.length.repr ++ " token(s)"⟩

def refusal (error : SyntaxError) : Entry :=
  ⟨.debug, .parsing, error.message⟩

def instruction (instruction : Instruction) : Entry :=
  ⟨.trace, .evaluation,
    match instruction with
    | .move direction amount => direction.name ++ " " ++ amount.toNat.repr
    | .penUp => "PenUp"
    | .penDown => "PenDown"
    | .setColor color => (Outline.wrap "SetColor" color.outline).compact
    | .endMarker => "End"⟩

/-- Reading tokens notes each gap, then the number of tokens. -/
def ofPieces (pieces : List Piece) : List Entry :=
  (pieces.filter Piece.isGap).map gap ++ [tokenCount (Token.ofPieces pieces)]

/-- Running a tree notes each instruction as often as it is carried out. -/
def ofTree (tree : Tree) : List Entry :=
  (tree.walk (fun step entries => instruction step :: entries) []).reverse

/-- What a run of a program's text notes down, whatever the agent. A text that is no program is
not run, and why it is none is noted instead. -/
def ofText (text : String) : List Entry :=
  let pieces := Piece.ofText text
  ofPieces pieces ++
    match Tree.ofTokens (Token.ofPieces pieces) with
    | .ok tree => ofTree tree
    | .error error => [refusal error]

/-! ### Runs that take notes

An entry is handed to `note` where it comes up, and `note` makes of it and the notes so far what it
likes. -/

variable {ω : Type v} (note : Entry → ω → ω)

def noteAll (entries : List Entry) (notes : ω) : ω :=
  entries.foldl (fun notes entry => note entry notes) notes

def readTokens (text : String) (notes : ω) : List Token × ω :=
  let pieces := Piece.ofText text
  (Token.ofPieces pieces, noteAll note (ofPieces pieces) notes)

def readTree (tokens : List Token) (notes : ω) : Except SyntaxError Tree × ω :=
  match Tree.ofTokens tokens with
  | .ok tree => (.ok tree, notes)
  | .error error => (.error error, note (refusal error) notes)

end Journal

namespace Agent

variable {σ : Type u} {ω : Type v} (agent : Agent σ) (note : Entry → ω → ω)

/-- Evaluates a tree. Each instruction is noted and carried out before the next. -/
def evaluateNoting (tree : Tree) (state : σ) (notes : ω) : σ × ω :=
  tree.walk
    (fun instruction (state, notes) =>
      (agent.perform instruction state, note (Journal.instruction instruction) notes))
    (state, notes)

/-- Runs a program's text and takes notes. -/
def executeNoting (text : String) (state : σ) (notes : ω) :
    (Except SyntaxError Unit × σ) × ω :=
  let (tokens, notes) := Journal.readTokens note text notes
  match Journal.readTree note tokens notes with
  | (.ok tree, notes) =>
    let (state, notes) := agent.evaluateNoting note tree state notes
    ((.ok (), state), notes)
  | (.error error, notes) => ((.error error, state), notes)

end Agent

end TurtleGraphics
