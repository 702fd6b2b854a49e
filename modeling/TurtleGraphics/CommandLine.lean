import TurtleGraphics.CommandLine.Arguments
import TurtleGraphics.CommandLine.Run

/-! The toolkit of the command `turtle`, and what the command prints with it. -/
namespace TurtleGraphics.CommandLine

def usage : String :=
  "usage: turtle [--emit segments|tokens|tree|source] [--precision N] [-v] [-V] [INPUT]\n"

/-- The options that arguments give. Arguments that are wrong, or ask for the version, give none. -/
def readArguments (arguments : List String) : Except Outcome Options :=
  match Request.ofArguments arguments with
  | none => .error ⟨2, "", usage⟩
  | some .version => .error ⟨0, "turtle 0.1.0\n", ""⟩
  | some (.emit options) => .ok options

/-- Whether filters let an entry pass. Only those are known that are the name of a level. -/
def passesLevel (filters : String) (entry : Entry) : Bool :=
  match filters with
  | "info" => entry.level = .info
  | "debug" => entry.level ≠ .trace
  | "trace" => true
  | _ => false

/-- The line of an entry. Its origin is padded to the longest one so far, its level to five
characters. -/
def paddedLine (entry : Entry) (width : Nat) : String × Nat :=
  let pad (width : Nat) (word : String) := word.pushn ' ' (width - word.length)
  let width := max width entry.origin.name.length
  (" " ++ pad 5 entry.level.name ++ " " ++ pad width entry.origin.name ++ " > " ++ entry.message ++
    "\n", width)

def Toolkit.standard : Toolkit Nat where
  readArguments := CommandLine.readArguments
  warning _ := ""
  passes := passesLevel
  blank := 0
  line := paddedLine

/-- What is printed with options, if the environment has no filters. -/
def Options.outcome (options : Options) (content : Except ReadFailure ByteArray) : Outcome :=
  (Toolkit.standard.logger none options.verbosity).outcome options content

end TurtleGraphics.CommandLine
