import TurtleGraphics.Decimal.Fixed
import TurtleGraphics.Decimal.Shortest

/-! The text of a coordinate. -/
namespace TurtleGraphics.Coordinate

/-- With `places`, so many decimals of the exact value; without, the fewest digits that read back.
-/
def finiteText (places : Option Nat) (binary : Binary) : String :=
  match places with
  | some places => Decimal.fixedText binary places
  | none => (Decimal.shortest binary).text 0

/-- A negative number keeps its sign though it be written as zero. -/
def text (places : Option Nat) (x : Float) : String :=
  let sign := if x.toBits < 0x8000000000000000 then "" else "-"
  match Magnitude.ofBits x.toBits with
  | .notANumber => "NaN"
  | .infinite => sign ++ "inf"
  | .finite binary => sign ++ finiteText places binary

end TurtleGraphics.Coordinate
