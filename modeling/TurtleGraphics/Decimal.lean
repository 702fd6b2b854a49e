/-! Decimal numbers and their positional text. -/
namespace TurtleGraphics

/-- The number `digits * 10 ^ exponent`. -/
structure Decimal where
  digits : Nat
  exponent : Int
deriving DecidableEq, Repr

namespace Decimal

/-- Digits by position, never with an exponent. `zeros` more places than needed follow the point,
and the point is left out where nothing follows it. -/
def text (decimal : Decimal) (zeros : Nat) : String :=
  let places := (-decimal.exponent).toNat
  let digits := Nat.toDigits 10 (decimal.digits * Nat.pow 10 decimal.exponent.toNat)
  let digits := List.replicate (places + 1 - digits.length) '0' ++ digits
  let whole := digits.take (digits.length - places)
  let fraction := digits.drop (digits.length - places) ++ List.replicate zeros '0'
  .ofList (if fraction.isEmpty then whole else whole ++ '.' :: fraction)

end Decimal

end TurtleGraphics
