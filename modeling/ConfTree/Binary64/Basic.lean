/-
Module: ConfTree.Binary64.Basic
Purpose: The 64-bit binary real numbers that configuration values hold.
Main exports:
  Binary64, Binary64.isNaN, Binary64.isFinite, Binary64.equal,
  Binary64.absValue, Binary64.ofMagnitude
-/

namespace ConfTree

/-!
A real number of a configuration is a word of 64 bits: a sign bit, eleven bits
of exponent and 52 bits of fraction.  The word itself is the representation, so
that two numbers are told apart exactly when their bits differ; what a finite
word stands for is the rational number `Binary64.absValue` with its sign.

The 63 bits below the sign, read as a natural number, are the word's magnitude.
Magnitudes are ordered as the numbers that they stand for, and the first one that
is not finite is `Binary64.infinityMagnitude`.
-/

/-- A binary real number of 64 bits, given by its bits. -/
structure Binary64 where
  bits : UInt64
deriving Repr, Inhabited, DecidableEq

namespace Binary64

/-! ### Fields -/

/-- Weight of the sign bit. -/
def signWeight : Nat := Nat.pow 2 63

/-- Number of fractions for each exponent. -/
def fractionCount : Nat := Nat.pow 2 52

/-- The exponent field of infinities and of what is not a number. -/
def topExponent : Nat := 2047

/-- Magnitude of the infinities. -/
def infinityMagnitude : Nat := topExponent * fractionCount

/-- Whether the sign bit is set. -/
def isNegative (x : Binary64) : Bool := signWeight ≤ x.bits.toNat

/-- The bits below the sign bit. -/
def magnitude (x : Binary64) : Nat := x.bits.toNat % signWeight

/-- The eleven bits of exponent. -/
def exponentField (x : Binary64) : Nat := x.magnitude / fractionCount

/-- The 52 bits of fraction. -/
def fractionField (x : Binary64) : Nat := x.magnitude % fractionCount

/-- The word with that sign and those bits below it. -/
def ofMagnitude (negative : Bool) (magnitude : Nat) : Binary64 :=
  ⟨.ofNat ((if negative then signWeight else 0) + magnitude % signWeight)⟩

/-! ### Classes -/

/-- Whether the word stands for no number at all. -/
def isNaN (x : Binary64) : Bool := infinityMagnitude < x.magnitude

/-- Whether the word is one of the two infinities. -/
def isInfinite (x : Binary64) : Bool := x.magnitude == infinityMagnitude

/-- Whether the word stands for a rational number. -/
def isFinite (x : Binary64) : Bool := x.magnitude < infinityMagnitude

/-- Whether the word is one of the two zeros. -/
def isZero (x : Binary64) : Bool := x.magnitude == 0

/-- The word with the other sign. -/
def negate (x : Binary64) : Binary64 := ofMagnitude (!x.isNegative) x.magnitude

/-- Equality of numbers: what is not a number equals nothing, not even itself,
and the two zeros are equal. -/
def equal (x y : Binary64) : Bool :=
  !x.isNaN && !y.isNaN && (x == y || (x.isZero && y.isZero))

/-! ### The number that a finite word stands for -/

/-- The whole number that is scaled by a power of two. -/
def significand (x : Binary64) : Nat :=
  if x.exponentField = 0 then x.fractionField
  else fractionCount + x.fractionField

/-- Exponent of the power of two by which the significand is scaled. -/
def power (x : Binary64) : Int := (max x.exponentField 1 : Nat) - 1075

/-- The number without its sign. -/
def absValue (x : Binary64) : Rat := x.significand * (2 : Rat) ^ x.power

end Binary64

end ConfTree
