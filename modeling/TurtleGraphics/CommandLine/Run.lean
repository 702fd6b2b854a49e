import TurtleGraphics.CommandLine.Options
import TurtleGraphics.Journal
import TurtleGraphics.Source
import TurtleGraphics.Turtle

/-! What a command line does, write by write. How its arguments are read, which entries a logger
lets pass and how it writes them is left to a toolkit. -/
namespace TurtleGraphics.CommandLine

/-- Why an input gives no text. -/
inductive ReadFailure
  | system (reason : String) (code : Nat)
  | notText
deriving DecidableEq, Repr

namespace ReadFailure

def notFound : ReadFailure := system "No such file or directory" 2

def notFolder : ReadFailure := system "Not a directory" 20

def isFolder : ReadFailure := system "Is a directory" 21

def text : ReadFailure → String
  | system reason code => reason ++ " (os error " ++ code.repr ++ ")"
  | notText => "stream did not contain valid UTF-8"

end ReadFailure

/-- Why a run fails. To write never does. -/
inductive Failure
  | read (name : String) (reason : ReadFailure)
  | parse (error : SyntaxError)
deriving DecidableEq, Repr

def Failure.message : Failure → String
  | read name reason => name ++ ": " ++ reason.text
  | parse error => error.message

/-- One write of a run: an entry of the journal, or a text for one of the two streams. -/
inductive Write
  | entry (entry : Entry)
  | output (text : String)
  | error (text : String)
deriving DecidableEq, Repr

/-- Leaves an entry to a logger, which writes it at once if it passes. -/
def note (passes : Entry → Bool) (entry : Entry) (writes : Array Write) : Array Write :=
  if passes entry then writes.push (.entry entry) else writes

/-- A part of a run, which adds to the writes before it and may fail. -/
abbrev Run := ExceptT Failure (StateM (Array Write))

namespace Run

def print (text : String) : Run Unit :=
  modify (·.push (.output text))

def printLines (texts : List String) : Run Unit :=
  texts.forM fun text => print (text ++ "\n")

def readTree (passes : Entry → Bool) (tokens : List Token) : Run Tree := do
  match ← modifyGet (Journal.readTree (note passes) tokens) with
  | .ok tree => return tree
  | .error error => throw (.parse error)

end Run

/-- The entry that tells how much has been drawn. -/
def drawn (turtle : Turtle) : Entry :=
  ⟨.info, .command, "drew " ++ turtle.segments.size.repr ++ " segment(s)"⟩

namespace Options

variable (options : Options) (passes : Entry → Bool) (content : Except ReadFailure ByteArray)

def readText : Except Failure String :=
  match content with
  | .error reason => .error (.read options.inputName reason)
  | .ok bytes => (String.fromUTF8? bytes).elim (.error (.read options.inputName .notText)) .ok

/-- Prints what is asked for of a program. Tokens are printed of any text. -/
def report (tokens : List Token) : Run Unit :=
  match options.mode with
  | .tokens => Run.printLines (tokens.map Token.text)
  | .tree => do
    let tree ← Run.readTree passes tokens
    Run.printLines [tree.outline.indented]
  | .source => do
    let tree ← Run.readTree passes tokens
    Run.print tree.source
  | .segments => do
    let tree ← Run.readTree passes tokens
    let turtle ← modifyGet (Turtle.agent.evaluateNoting (note passes) tree .initial)
    modify (note passes (drawn turtle))
    Run.printLines (turtle.segments.toList.map (·.text options.places))

def run : Run Unit := do
  let text ← options.readText content
  let tokens ← modifyGet (Journal.readTokens (note passes) text)
  options.report passes tokens

/-- The exit code of a run and all its writes. A failure is the last of them. -/
def course : UInt8 × List Write :=
  match (options.run passes content).run.run #[] with
  | (.ok (), writes) => (0, writes.toList)
  | (.error failure, writes) => (1, (writes.push (.error (failure.message ++ "\n"))).toList)

end Options

structure Outcome where
  exit : UInt8
  output : String
  errors : String
deriving DecidableEq, Repr

/-- How entries are written, one after another. Of those before it a line depends on what `μ` keeps
of them, which is `blank` at first. -/
structure Format (μ : Type) where
  blank : μ
  line : Entry → μ → String × μ

/-- What writes the entries that pass among the errors, with `opening` before them. -/
structure Logger (μ : Type) extends Format μ where
  opening : String
  passes : Entry → Bool

namespace Logger

variable {μ : Type} (logger : Logger μ)

def write : Outcome × μ → Write → Outcome × μ
  | (outcome, before), .entry entry =>
    let (line, after) := logger.line entry before
    ({ outcome with errors := outcome.errors ++ line }, after)
  | (outcome, before), .output text => ({ outcome with output := outcome.output ++ text }, before)
  | (outcome, before), .error text => ({ outcome with errors := outcome.errors ++ text }, before)

/-- The outcome of a run whose entries go through the logger. -/
def outcome (options : Options) (content : Except ReadFailure ByteArray) : Outcome :=
  let (exit, writes) := options.course logger.passes content
  (writes.foldl logger.write (⟨exit, "", logger.opening⟩, logger.blank)).1

end Logger

/-- What a command line is built on. -/
structure Toolkit (μ : Type) extends Format μ where
  /-- The options that arguments give, or what is printed in place of a run. -/
  readArguments : List String → Except Outcome Options
  /-- What is written of filters that are wrong. -/
  warning : String → String
  /-- Whether filters let an entry pass. -/
  passes : String → Entry → Bool

/-- The filters for so many requests for more detail. -/
def filters : Nat → String
  | 0 => "warn"
  | 1 => "info"
  | 2 => "debug"
  | _ => "trace"

/-- Whether a path names the standard input: a hyphen, also with slashes and parts after it that
lead nowhere else. -/
def isStandardInput (path : String) : Bool :=
  match path.splitOn "/" with
  | "-" :: rest => rest.all (· ∈ ["", "."])
  | _ => false

namespace Toolkit

variable {μ : Type} (toolkit : Toolkit μ)

/-- Filters from the environment take the place of those that the arguments ask for. -/
def logger (environment : Option String) (verbosity : Nat) : Logger μ :=
  let filters := environment.getD (filters verbosity)
  { toolkit.toFormat with opening := toolkit.warning filters, passes := toolkit.passes filters }

/-- Answers a command line. `read` gives the content of a file, or of the standard input where
there is no name; nothing is read where there are no options. -/
def answer {m : Type → Type} [Monad m] (environment : Option String) (arguments : List String)
    (read : Option String → m (Except ReadFailure ByteArray)) : m Outcome := do
  match toolkit.readArguments arguments with
  | .error outcome => return outcome
  | .ok options =>
    let content ← read (options.input.filter (!isStandardInput ·))
    return (toolkit.logger environment options.verbosity).outcome options content

end Toolkit

end TurtleGraphics.CommandLine
