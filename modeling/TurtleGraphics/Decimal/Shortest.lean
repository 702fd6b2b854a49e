import TurtleGraphics.Decimal
import TurtleGraphics.Decimal.Binary

/-! The decimal with the fewest digits that reads back as a given 64-bit number. -/
namespace TurtleGraphics.Decimal

/-- A number and the bounds of what rounds to it, in some common unit. -/
structure Rounding where
  low : Nat
  value : Nat
  high : Nat
  inclusive : Bool
deriving DecidableEq, Repr

namespace Rounding

/-- The bounds lie half-way to the neighbors, in units of a quarter of the last place. The lower
neighbor of a power of two is nearer, save at the bottom of the range. A bound itself rounds to
the even mantissa. -/
def ofBinary (binary : Binary) : Rounding :=
  let narrow := binary.mantissa = Binary.leadingBit && binary.exponent ≠ Binary.leastExponent
  ⟨4 * binary.mantissa - if narrow then 1 else 2, 4 * binary.mantissa, 4 * binary.mantissa + 2,
    binary.mantissa % 2 = 0⟩

def contains (rounding : Rounding) (n : Nat) : Bool :=
  if rounding.inclusive then rounding.low ≤ n && n ≤ rounding.high
  else rounding.low < n && n < rounding.high

def scale (rounding : Rounding) (factor : Nat) : Rounding :=
  { rounding with
    low := rounding.low * factor
    value := rounding.value * factor
    high := rounding.high * factor }

/-- The multiple of `step` next to the value that rounds to it, the nearer of two. Of two equally
near it is the greater. -/
def nearest? (rounding : Rounding) (step : Nat) : Option Nat :=
  let below := rounding.value / step
  let rest := rounding.value % step
  match rounding.contains (below * step), rounding.contains ((below + 1) * step) with
  | true, true => some (if 2 * rest < step then below else below + 1)
  | true, false => some below
  | false, true => some (below + 1)
  | false, false => none

end Rounding

/-- Looks for a decimal on the grid of `10 ^ exponent`, then on finer ones. Seventeen digits
always suffice, so that the number itself, which is what remains, is never reached. -/
def shortestFrom (binary : Binary) : Nat → Int → Decimal
  | 0, _ => ⟨binary.mantissa * Nat.pow 2 binary.exponent.toNat * Nat.pow 5 (-binary.exponent).toNat,
      min binary.exponent 0⟩
  | grids + 1, exponent =>
    let unit := binary.exponent - 2
    let rounding := (Rounding.ofBinary binary).scale
      (Nat.pow 2 unit.toNat * Nat.pow 10 (-exponent).toNat)
    match rounding.nearest? (Nat.pow 2 (-unit).toNat * Nat.pow 10 exponent.toNat) with
    | some digits => ⟨digits, exponent⟩
    | none => shortestFrom binary grids (exponent - 1)

/-- The coarsest decimal grid with a number that reads back has the one of fewest digits. The
search starts from a grid too coarse for numbers of so many bits. -/
def shortest (binary : Binary) : Decimal :=
  if binary.mantissa = 0 then ⟨0, 0⟩
  else
    let bits := binary.mantissa.log2 + 1 + binary.exponent
    shortestFrom binary 20 (bits * 30103 / 100000 + 1)

end TurtleGraphics.Decimal
