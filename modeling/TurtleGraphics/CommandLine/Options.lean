/-! What a command line asks for. -/
namespace TurtleGraphics.CommandLine

/-- What is printed of a program. -/
inductive Emit
  | segments
  | tokens
  | tree
  | source
deriving DecidableEq, Repr

/-- What has been asked for. An option that takes a value is given at most once. -/
structure Options where
  input : Option String
  emit : Option Emit
  places : Option Nat
  verbosity : Nat
deriving DecidableEq, Repr

/-- What is printed if nothing is asked for is the drawing. -/
def Options.mode (options : Options) : Emit :=
  options.emit.getD .segments

/-- The name that messages give an input. -/
def Options.inputName (options : Options) : String :=
  options.input.getD "<stdin>"

end TurtleGraphics.CommandLine
