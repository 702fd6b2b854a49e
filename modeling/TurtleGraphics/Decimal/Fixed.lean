import TurtleGraphics.Decimal
import TurtleGraphics.Decimal.Binary

/-! Decimals with a given number of places. -/
namespace TurtleGraphics.Decimal

/-- The natural number nearest to a quotient, the even one of two. -/
def roundHalfEven (numerator denominator : Nat) : Nat :=
  let quotient := numerator / denominator
  let rest := 2 * (numerator % denominator)
  if denominator < rest || (denominator = rest && quotient % 2 = 1) then quotient + 1 else quotient

/-- The decimal nearest to a number on the grid of `10 ^ -places`. -/
def rounded (binary : Binary) (places : Nat) : Decimal :=
  ⟨roundHalfEven (binary.mantissa * Nat.pow 2 binary.exponent.toNat * Nat.pow 10 places)
    (Nat.pow 2 (-binary.exponent).toNat), -places⟩

/-- A number with `places` decimals. A binary fraction has as many decimals as bits, so all
further ones are zero. -/
def fixedText (binary : Binary) (places : Nat) : String :=
  let used := min places (-binary.exponent).toNat
  (rounded binary used).text (places - used)

end TurtleGraphics.Decimal
