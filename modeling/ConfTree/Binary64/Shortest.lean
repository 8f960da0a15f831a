/-
Module: ConfTree.Binary64.Shortest
Purpose: The shortest decimal that is read back as a given binary number.
Main exports:
  Decimal, Tie, Binary64.readBackInterval, Binary64.shortest
-/
import ConfTree.Binary64.Basic

namespace ConfTree

/-!
A positive binary number is written with the fewest digits that identify it.
The rationals that round to the number form an interval around it, closed exactly
when the significand is even.  Among the grids of the multiples of a power of
ten, the coarsest one with a point in that interval is sought, from coarse to
fine.  The points of a grid that are worth trying are the two neighbours of the
number; of two hits the nearer one wins, and `Tie` decides when both are equally
near.
-/

/-- The number `digits * 10 ^ exponent`. -/
structure Decimal where
  digits : Nat
  exponent : Int
deriving Repr, Inhabited, DecidableEq

/-- Which of two equally near decimals is written. -/
inductive Tie where
  /-- The one whose last digit is even. -/
  | toEven
  /-- The greater one. -/
  | upward
deriving Repr, DecidableEq

/-- A range of rational numbers, with or without its two ends. -/
structure Interval where
  low : Rat
  high : Rat
  closed : Bool

/-- Whether a number lies in the range. -/
def Interval.has (range : Interval) (x : Rat) : Bool :=
  if range.closed then range.low ≤ x && x ≤ range.high
  else range.low < x && x < range.high

namespace Binary64

/-- The numbers that round to a positive finite binary number.  Below a power of
two the neighbours are half as far apart as above it. -/
def readBackInterval (x : Binary64) : Interval :=
  let unit := (2 : Rat) ^ x.power
  let down := if x.fractionField = 0 ∧ 1 < x.exponentField then unit / 4 else unit / 2
  { low := x.absValue - down
    high := x.absValue + unit / 2
    closed := x.significand % 2 == 0 }

/-- The multiplier of the grid point in the range that is nearest to a number,
for the multiples of `10 ^ exponent`. -/
def gridPoint? (tie : Tie) (range : Interval) (x : Rat) (exponent : Int) : Option Nat :=
  let step := (10 : Rat) ^ exponent
  let scaled := x / step
  let below := scaled.floor.toNat
  let part := scaled - below
  let takesAbove :=
    if part < 1 / 2 then false
    else if 1 / 2 < part then true
    else
      match tie with
      | .toEven => below % 2 == 1
      | .upward => true
  match range.has (below * step), range.has ((below + 1) * step) with
  | true, true => some (if takesAbove then below + 1 else below)
  | true, false => some below
  | false, true => some (below + 1)
  | false, false => none

/-- Try the grids from that exponent downward. -/
def coarsestPoint (tie : Tie) (range : Interval) (x : Rat) :
    Nat → Int → Decimal
  | 0, exponent => ⟨0, exponent⟩
  | tries + 1, exponent =>
      match gridPoint? tie range x exponent with
      | some digits => ⟨digits, exponent⟩
      | none => coarsestPoint tie range x tries (exponent - 1)

/-- An exponent of ten above every grid that can have a point near the number. -/
def coarsestExponent (x : Binary64) : Int :=
  let top := x.power + 53
  if top ≤ 0 then top * 3 / 10 + 1 else top / 3 + 1

/-- The shortest decimal that rounds to a positive finite binary number. -/
def shortest (tie : Tie) (x : Binary64) : Decimal :=
  coarsestPoint tie x.readBackInterval x.absValue 400 x.coarsestExponent

end Binary64

end ConfTree
