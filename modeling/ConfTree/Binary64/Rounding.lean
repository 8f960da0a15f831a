/-
Module: ConfTree.Binary64.Rounding
Purpose: Rounding of exact rational numbers to binary ones.
Main exports:
  roundHalfEven, Binary64.nearest, Binary64.times, Binary64.dividedBy,
  Binary64.ofNat, Binary64.ofInt, Binary64.ofSingleBits
-/
import ConfTree.Binary64.Basic

namespace ConfTree

/-!
Every operation on binary numbers is the exact operation on the rational numbers
that they stand for, followed by one rounding.  The rounding takes the nearest
binary number, of two equally near ones the one with an even significand, and
reaches infinity where the nearest significand no longer fits.
-/

/-- The whole number nearest to a rational number; a half goes to the even
neighbour. -/
def roundHalfEven (x : Rat) : Int :=
  let below := x.floor
  let part := x - below
  if part < 1 / 2 then below
  else if 1 / 2 < part then below + 1
  else below + below % 2

/-- The greatest `e` with `2 ^ e ≤ x`, for a positive `x`. -/
def floorLog2 (x : Rat) : Int :=
  let guess : Int := (x.num.toNat.log2 : Int) - (x.den.log2 : Int)
  if (2 : Rat) ^ guess ≤ x then guess else guess - 1

namespace Binary64

/-- The magnitude nearest to a number that is not negative; it never exceeds that
of infinity. -/
def nearestMagnitude (x : Rat) : Nat :=
  if x ≤ 0 then 0
  else
    let power := max (-1074) (floorLog2 x - 52)
    let significand := (roundHalfEven (x * (2 : Rat) ^ (-power))).toNat
    min ((power + 1074).toNat * fractionCount + significand) infinityMagnitude

/-- The binary number nearest to an exact number given by sign and size. -/
def nearest (negative : Bool) (size : Rat) : Binary64 :=
  ofMagnitude negative (nearestMagnitude size)

/-- The binary number nearest to a natural number. -/
def ofNat (n : Nat) : Binary64 := nearest false (n : Rat)

/-- The binary number nearest to a whole number. -/
def ofInt (n : Int) : Binary64 := nearest (n < 0) (n.natAbs : Rat)

/-- The product of two finite numbers, rounded once. -/
def times (x y : Binary64) : Binary64 :=
  nearest (x.isNegative != y.isNegative) (x.absValue * y.absValue)

/-- The quotient of two finite numbers, the second of them not zero, rounded
once. -/
def dividedBy (x y : Binary64) : Binary64 :=
  nearest (x.isNegative != y.isNegative) (x.absValue / y.absValue)

/-- The binary number nearest to a power of ten. -/
def powerOfTen (exponent : Nat) : Binary64 := ofNat (Nat.pow 10 exponent)

/-! ### Widening

A binary number of 32 bits has eight bits of exponent and 23 of fraction.  Every
one of them is also a number of 64 bits, so widening loses nothing.
-/

/-- Weight of the sign bit of a number of 32 bits. -/
def singleSignWeight : Nat := Nat.pow 2 31

/-- Number of fractions of a number of 32 bits for each exponent. -/
def singleFractionCount : Nat := Nat.pow 2 23

/-- The number of 64 bits that equals a number of 32 bits given by its bits. -/
def ofSingleBits (bits : UInt32) : Binary64 :=
  let negative : Bool := singleSignWeight ≤ bits.toNat
  let exponent : Nat := bits.toNat / singleFractionCount % 256
  let fraction : Nat := bits.toNat % singleFractionCount
  if exponent = 255 then
    ofMagnitude negative (infinityMagnitude + fraction * (fractionCount / singleFractionCount))
  else if exponent = 0 then
    nearest negative (fraction * (2 : Rat) ^ (-149 : Int))
  else
    nearest negative ((singleFractionCount + fraction : Nat) * (2 : Rat) ^ ((exponent : Int) - 150))

end Binary64

end ConfTree
