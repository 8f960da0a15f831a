/-
Module: ConfTree.Binary64.Text
Purpose: Decimal text of binary real numbers.
Main exports:
  NumberStyle, Decimal.positional, Decimal.scientific, Binary64.text
-/
import ConfTree.Binary64.Shortest

namespace ConfTree

/-!
A number is laid out from the digits of its shortest decimal.  Between which
powers of ten the positional form is used, how a whole number ends and how a tie
between two shortest decimals is settled differ from one output format to the
next; those choices make up a `NumberStyle`.
-/

/-- The choices that an output format makes about real numbers. -/
structure NumberStyle where
  /-- How a tie between two shortest decimals is settled. -/
  tie : Tie
  /-- The least and the greatest leading power of ten written positionally;
  without bounds every number is. -/
  positionalRange : Option (Int × Int)
  /-- What follows the digits of a whole number in positional form. -/
  wholeEnding : List Char

/-- The decimal digits of a natural number, without leading zeros. -/
def digitChars (n : Nat) : List Char := Nat.toDigits 10 n

namespace Decimal

/-- The power of ten that the first digit stands for. -/
def leadingPower (d : Decimal) : Int :=
  d.exponent + (digitChars d.digits).length - 1

/-- The number without an exponent. -/
def positional (d : Decimal) (wholeEnding : List Char) : List Char :=
  let digits := digitChars d.digits
  let point := d.exponent + digits.length
  if 0 ≤ d.exponent then
    digits ++ List.replicate d.exponent.toNat '0' ++ wholeEnding
  else if 0 < point then
    digits.take point.toNat ++ '.' :: digits.drop point.toNat
  else
    '0' :: '.' :: List.replicate (-point).toNat '0' ++ digits

/-- An exponent of ten with its sign. -/
def exponentText (exponent : Int) : List Char :=
  (if exponent < 0 then '-' else '+') :: digitChars exponent.natAbs

/-- The number with one digit in front of the point and an exponent. -/
def scientific (d : Decimal) : List Char :=
  let mantissa :=
    match digitChars d.digits with
    | first :: second :: rest => first :: '.' :: second :: rest
    | digits => digits
  mantissa ++ 'e' :: exponentText d.leadingPower

/-- The number in the form that a style asks for. -/
def text (style : NumberStyle) (d : Decimal) : List Char :=
  match style.positionalRange with
  | none => d.positional style.wholeEnding
  | some (least, greatest) =>
      if least ≤ d.leadingPower ∧ d.leadingPower ≤ greatest then
        d.positional style.wholeEnding
      else d.scientific

end Decimal

namespace Binary64

/-- The text of a finite number without its sign. -/
def absText (style : NumberStyle) (x : Binary64) : List Char :=
  if x.isZero then '0' :: style.wholeEnding
  else (x.shortest style.tie).text style

/-- The text of a finite number. -/
def text (style : NumberStyle) (x : Binary64) : List Char :=
  if x.isNegative then '-' :: x.absText style else x.absText style

end Binary64

end ConfTree
