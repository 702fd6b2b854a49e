import TurtleGraphics.Cursor
import TurtleGraphics.Main
import TurtleGraphics.Proofs.Spelling
import TurtleGraphics.Proofs.Step
import TurtleGraphics.Proofs.Invariant
import TurtleGraphics.Proofs.Grammar
import TurtleGraphics.Proofs.ViablePrefix
import TurtleGraphics.Proofs.Relabeling
import TurtleGraphics.Proofs.Within
import TurtleGraphics.Proofs.Descent
import TurtleGraphics.Proofs.Words
import TurtleGraphics.Proofs.Recognition
import TurtleGraphics.Proofs.Form
import TurtleGraphics.Proofs.Segmentation
import TurtleGraphics.Proofs.Comments
import TurtleGraphics.Proofs.Written
import TurtleGraphics.Proofs.Canonical
import TurtleGraphics.Proofs.SourceText
import TurtleGraphics.Proofs.RoundTrip
import TurtleGraphics.Proofs.Tidy
import TurtleGraphics.Proofs.Fidelity
import TurtleGraphics.Proofs.Joined
import TurtleGraphics.Proofs.Concatenation
import TurtleGraphics.Proofs.Actions
import TurtleGraphics.Proofs.Looping
import TurtleGraphics.Proofs.Session
import TurtleGraphics.Proofs.Layout
import TurtleGraphics.Proofs.LetterCase
import TurtleGraphics.Proofs.Strokes
import TurtleGraphics.Proofs.Lockstep
import TurtleGraphics.Proofs.Overflow
import TurtleGraphics.Proofs.Causes
import TurtleGraphics.Proofs.Lines
import TurtleGraphics.Proofs.Streams
import TurtleGraphics.Proofs.Rows
import TurtleGraphics.Proofs.Verbosity
import TurtleGraphics.Proofs.Writes
import TurtleGraphics.Proofs.Outcome
import TurtleGraphics.Proofs.LineCount
import TurtleGraphics.Proofs.Rotation
import TurtleGraphics.Proofs.Reports
import TurtleGraphics.Proofs.Statements
import TurtleGraphics.Proofs.Digits
import TurtleGraphics.Proofs.Scan
import TurtleGraphics.Proofs.Octets
import TurtleGraphics.Proofs.Reading
import TurtleGraphics.Proofs.Encoding
import TurtleGraphics.Proofs.Precedence
