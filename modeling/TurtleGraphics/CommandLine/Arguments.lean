import TurtleGraphics.CommandLine.Options

/-! Arguments read as options. -/
namespace TurtleGraphics.CommandLine

def Emit.ofName? : String → Option Emit
  | "segments" => some segments
  | "tokens" => some tokens
  | "tree" => some tree
  | "source" => some source
  | _ => none

/-- A number of places: digits, with a plus sign before them or not, below `2 ^ 64`. -/
def places? (text : String) : Option Nat :=
  let digits := match text.toList with
    | '+' :: digits => digits
    | digits => digits
  let value := Nat.ofDigitChars 10 digits 0
  if !digits.isEmpty && digits.all Char.isDigit && value < UInt64.size then some value else none

/-- One argument by its form. -/
inductive Argument
  | plain (text : String)
  | letters (letters : List Char)
  | word (name : String) (value : Option String)
  | separator
deriving DecidableEq, Repr

/-- A single hyphen is a plain argument. -/
def Argument.ofText (text : String) : Argument :=
  match text.toList with
  | ['-', '-'] => separator
  | '-' :: '-' :: rest =>
    word (.ofList (rest.takeWhile (· ≠ '=')))
      (match rest.dropWhile (· ≠ '=') with
        | _ :: value => some (.ofList value)
        | [] => none)
  | '-' :: c :: rest => letters (c :: rest)
  | _ => plain text

inductive Request
  | version
  | emit (options : Options)
deriving DecidableEq, Repr

namespace Options

def initial : Options := ⟨none, none, none, 0⟩

def withInput (options : Options) (name : String) : Option Options :=
  if options.input.isSome || name.isEmpty then none else some { options with input := name }

/-- Sets the option called `name`, if it takes a value. -/
def withValue (options : Options) (name value : String) : Option Options :=
  match name with
  | "emit" =>
    if options.emit.isSome then none
    else (Emit.ofName? value).map fun emit => { options with emit := some emit }
  | "precision" =>
    if options.places.isSome then none
    else (places? value).map fun places => { options with places := some places }
  | _ => none

def moreVerbose (options : Options) : Options :=
  { options with verbosity := options.verbosity + 1 }

/-- Takes letters that stand behind one hyphen. Asking for the version ends the reading. -/
def withLetters (options : Options) : List Char → Option Request
  | [] => some (.emit options)
  | 'v' :: letters => options.moreVerbose.withLetters letters
  | 'V' :: _ => some .version
  | _ => none

/-- Reads arguments from left to right up to the first that is wrong. After a separator all are
plain. -/
def read (options : Options) : List String → Option Request
  | [] => some (.emit options)
  | argument :: rest =>
    match Argument.ofText argument with
    | .separator => (rest.foldlM withInput options).map .emit
    | .plain name => (options.withInput name).bind fun options => options.read rest
    | .letters letters =>
      match options.withLetters letters with
      | some (.emit options) => options.read rest
      | request => request
    | .word "version" none => some .version
    | .word "verbose" none => options.moreVerbose.read rest
    | .word name (some value) =>
      (options.withValue name value).bind fun options => options.read rest
    | .word name none =>
      match rest with
      | [] => none
      | value :: rest =>
        match Argument.ofText value with
        | .plain value => (options.withValue name value).bind fun options => options.read rest
        | _ => none

end Options

/-- What the arguments ask for, unless they are wrong. -/
def Request.ofArguments (arguments : List String) : Option Request :=
  Options.initial.read arguments

end TurtleGraphics.CommandLine
