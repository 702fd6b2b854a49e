import TurtleGraphics.CommandLine

/-! The command `turtle`: reads a program from a file or the standard input. -/
namespace TurtleGraphics.CommandLine

/-- Some codes of the system come with their sign turned. -/
def ReadFailure.ofCode (code : UInt32) (reason : String) : ReadFailure :=
  match (if code < 0x80000000 then code else 0 - code).toNat with
  | 2 => notFound
  | 20 => notFolder
  | 21 => isFolder
  | code => system reason code

def ReadFailure.ofError : IO.Error → ReadFailure
  | .noFileOrDirectory _ code reason | .interrupted _ code reason
  | .alreadyExists _ code reason | .invalidArgument _ code reason
  | .permissionDenied _ code reason | .resourceExhausted _ code reason
  | .inappropriateType _ code reason | .noSuchThing _ code reason
  | .otherError code reason | .resourceBusy code reason | .resourceVanished code reason
  | .unsupportedOperation code reason | .hardwareFault code reason
  | .unsatisfiedConstraints code reason | .illegalOperation code reason
  | .protocolError code reason | .timeExpired code reason => ofCode code reason
  | .unexpectedEof => system "unexpected end of file" 0
  | .userError reason => system reason 0

def readInput (name : Option String) : IO (Except ReadFailure ByteArray) := do
  let content ← match name with
    | some name => (IO.FS.readBinFile name).toBaseIO
    | none => (← IO.getStdin).readBinToEnd.toBaseIO
  return content.mapError ReadFailure.ofError

end TurtleGraphics.CommandLine

def main (arguments : List String) : IO UInt32 := do
  let filters ← IO.getEnv "RUST_LOG"
  let outcome ← TurtleGraphics.CommandLine.Toolkit.standard.answer filters arguments
    TurtleGraphics.CommandLine.readInput
  (← IO.getStderr).putStr outcome.errors
  (← IO.getStdout).putStr outcome.output
  return outcome.exit.toUInt32
