/-! Floating-point numbers taken apart. -/
namespace TurtleGraphics

/-- The number `mantissa * 2 ^ exponent`. -/
structure Binary where
  mantissa : Nat
  exponent : Int
deriving DecidableEq, Repr

/-- A floating-point number without its sign. -/
inductive Magnitude
  | notANumber
  | infinite
  | finite (value : Binary)
deriving DecidableEq, Repr

/-- The leading bit of a mantissa, which is not stored. -/
def Binary.leadingBit : Nat := 0x10000000000000

/-- The exponent of the smallest numbers, which have no leading bit. -/
def Binary.leastExponent : Int := -1074

/-- Reads the bits of a 64-bit number: a sign, eleven bits of exponent and 52 of mantissa. -/
def Magnitude.ofBits (bits : UInt64) : Magnitude :=
  let exponent := bits.toNat / Binary.leadingBit % 2048
  let mantissa := bits.toNat % Binary.leadingBit
  if exponent = 2047 then if mantissa = 0 then infinite else notANumber
  else if exponent = 0 then finite ⟨mantissa, Binary.leastExponent⟩
  else finite ⟨Binary.leadingBit + mantissa, Binary.leastExponent + (exponent - 1)⟩

end TurtleGraphics
