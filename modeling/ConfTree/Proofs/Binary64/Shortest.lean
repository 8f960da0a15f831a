/-
Module: ConfTree.Proofs.Binary64.Shortest
Purpose: The search for the shortest decimal of a number always ends at one that stands for
  the number.
Main exports:
  Binary64.has_of_gridPoint?, Binary64.isSome_gridPoint?, Binary64.has_coarsestPoint,
  Binary64.has_shortest, Binary64.shortest_digits_pos
-/
import ConfTree.Binary64.Shortest
import Mathlib.Algebra.Order.Field.Power
import Mathlib.Algebra.Order.Floor.Ring
import Mathlib.Data.Rat.Floor
import Mathlib.Tactic.Positivity

namespace ConfTree

/-!
The search for the shortest decimal gives up after a bounded number of grids.  It never comes
to that: a grid whose step is at most a quarter of the distance between neighbouring numbers
has a point just below the number, and the grid of a third of the number's power of two is
one, since ten is more than the third power of two.  It is among the grids that are tried,
whatever the number.
-/

namespace Binary64

variable {tie : Tie} {range : Interval} {x : Rat} {exponent : Int}

/-! ### The points of one grid -/

/-- A point that is found lies in the range. -/
theorem has_of_gridPoint? {digits : Nat} (found : gridPoint? tie range x exponent = some digits) :
    range.has (digits * (10 : Rat) ^ exponent) := by
  unfold gridPoint? at found
  extract_lets step scaled below part takesAbove at found
  split at found
  case h_1 hasBelow hasAbove =>
    cases chosen : takesAbove with
    | true => simpa [← Option.some.inj found, chosen] using hasAbove
    | false => simpa [← Option.some.inj found, chosen] using hasBelow
  case h_2 hasBelow hasAbove => simpa [← Option.some.inj found] using hasBelow
  case h_3 hasBelow hasAbove => simpa [← Option.some.inj found] using hasAbove
  case h_4 => cases found

/-- A grid that is no coarser than the distance of a number to the lower end of the range has a
point in the range. -/
theorem isSome_gridPoint? (notNegative : 0 ≤ x) (fine : (10 : Rat) ^ exponent ≤ x - range.low)
    (inside : x < range.high) : (gridPoint? tie range x exponent).isSome := by
  unfold gridPoint?
  extract_lets step scaled below part takesAbove
  have positive : 0 < step := by positivity
  have floorNotNegative : 0 ≤ scaled.floor := Rat.le_floor_iff.mpr (by positivity)
  have whole : (below : Rat) = (scaled.floor : Int) := by
    have same : (below : Int) = scaled.floor := Int.toNat_of_nonneg floorNotNegative
    rw [← same, Int.cast_natCast]
  have least : below ≤ x / step := by
    rw [whole]
    exact Rat.floor_le scaled
  have greatest : x / step < below + 1 := by
    rw [whole]
    exact sub_lt_iff_lt_add.mp Rat.lt_floor
  have atMost : below * step ≤ x := (le_div_iff₀ positive).mp least
  have above : x < (below + 1) * step := (div_lt_iff₀ positive).mp greatest
  have hasBelow : range.has (below * step) := by
    have low : range.low < below * step := by linarith
    have high : below * step < range.high := by linarith
    simp [Interval.has, low, high, low.le, high.le]
  rw [hasBelow]
  cases range.has ((below + 1) * step) <;> rfl

/-! ### The search over grids -/

/-- A search that comes to a grid with a point in the range ends at a point in the range. -/
theorem has_coarsestPoint {tries finer : Nat} (reached : finer < tries)
    (found : (gridPoint? tie range x (exponent - finer)).isSome) :
    range.has ((coarsestPoint tie range x tries exponent).digits *
      (10 : Rat) ^ (coarsestPoint tie range x tries exponent).exponent) := by
  induction tries generalizing exponent finer with
  | zero => omega
  | succ tries ih =>
      cases here : gridPoint? tie range x exponent with
      | some digits =>
          simp only [coarsestPoint, here]
          exact has_of_gridPoint? here
      | none =>
          simp only [coarsestPoint, here]
          cases finer with
          | zero => simp [here] at found
          | succ finer =>
              have next : exponent - (finer + 1 : Nat) = exponent - 1 - finer := by omega
              rw [next] at found
              exact ih (by omega) found

/-! ### The range of a number -/

/-- A power of ten below one is at most the power of two of a third of its places. -/
theorem ten_zpow_le {places : Nat} {power : Int} (small : -(3 * places : Nat) ≤ power) :
    (10 : Rat) ^ (-places : Int) ≤ (2 : Rat) ^ power :=
  calc (10 : Rat) ^ (-places : Int)
      = ((10 : Rat) ^ places)⁻¹ := by rw [zpow_neg, zpow_natCast]
    _ ≤ ((2 ^ 3 : Rat) ^ places)⁻¹ := by
        apply inv_anti₀ (by positivity)
        exact pow_le_pow_left₀ (by norm_num) (by norm_num) places
    _ = (2 : Rat) ^ (-(3 * places : Nat) : Int) := by rw [← pow_mul, zpow_neg, zpow_natCast]
    _ ≤ (2 : Rat) ^ power := zpow_le_zpow_right₀ (by norm_num) small

theorem exponentField_lt (x : Binary64) : x.exponentField < 2048 := by
  have magnitude : x.magnitude < signWeight := Nat.mod_lt _ (by decide)
  rw [exponentField]
  exact Nat.div_lt_of_lt_mul magnitude

theorem significand_pos {x : Binary64} (notZero : x.isZero = false) : 0 < x.significand := by
  have positive : x.magnitude ≠ 0 := by simpa [isZero] using notZero
  have fields : x.magnitude = fractionCount * x.exponentField + x.fractionField :=
    (Nat.div_add_mod x.magnitude fractionCount).symm
  have count : 0 < fractionCount := by decide
  rw [significand]
  split
  case isTrue lowest =>
    rw [lowest] at fields
    omega
  case isFalse => omega

/-- The number is at least one unit, of which the range goes down between a quarter and a half. -/
theorem readBackInterval_bounds {x : Binary64} (notZero : x.isZero = false) :
    0 < x.readBackInterval.low ∧ (2 : Rat) ^ x.power / 4 ≤ x.absValue - x.readBackInterval.low ∧
      x.absValue < x.readBackInterval.high := by
  have unit : (0 : Rat) < (2 : Rat) ^ x.power := by positivity
  have least : (2 : Rat) ^ x.power ≤ x.absValue := by
    have one : (1 : Rat) ≤ x.significand := by exact_mod_cast significand_pos notZero
    exact le_mul_of_one_le_left unit.le one
  rw [readBackInterval]
  split <;> refine ⟨?_, ?_, ?_⟩ <;> dsimp only <;> linarith

/-- One of the grids that are tried for the shortest decimal of a number has a unit of at most a
quarter of that of the number. -/
theorem exists_fine_grid (x : Binary64) :
    ∃ finer : Nat, finer < 400 ∧
      (10 : Rat) ^ (x.coarsestExponent - finer) ≤ (2 : Rat) ^ x.power / 4 := by
  have exponentBound := x.exponentField_lt
  have quarter : (2 : Rat) ^ (x.power - 2) = (2 : Rat) ^ x.power / 4 := by
    rw [zpow_sub₀ (by norm_num)]
    norm_num
  have powerBound : -1074 ≤ x.power ∧ x.power ≤ 972 := by
    rw [power]
    omega
  -- No places behind the point for large numbers, and a third of the power for others.
  obtain ⟨places, small, enough⟩ : ∃ places : Nat, -(3 * places : Nat) ≤ x.power - 2 ∧
      0 ≤ x.coarsestExponent + places ∧ x.coarsestExponent + places < 400 := by
    refine ⟨((4 - x.power) / 3).toNat, by omega, ?_⟩
    simp only [coarsestExponent]
    split <;> omega
  refine ⟨(x.coarsestExponent + places).toNat, by omega, ?_⟩
  have exponent : x.coarsestExponent - (x.coarsestExponent + places).toNat = -(places : Int) := by
    omega
  rw [exponent, ← quarter]
  exact ten_zpow_le small

/-! ### The shortest decimal -/

/-- The shortest decimal of a number is read back as that number. -/
theorem has_shortest {x : Binary64} (notZero : x.isZero = false) (tie : Tie) :
    x.readBackInterval.has
      ((x.shortest tie).digits * (10 : Rat) ^ (x.shortest tie).exponent) := by
  obtain ⟨low, distance, high⟩ := readBackInterval_bounds notZero
  obtain ⟨finer, tried, fine⟩ := exists_fine_grid x
  have notNegative : 0 ≤ x.absValue := by
    rw [absValue]
    positivity
  rw [shortest]
  apply has_coarsestPoint tried
  exact isSome_gridPoint? notNegative (fine.trans distance) high

/-- The shortest decimal of a number other than zero has a digit other than zero. -/
theorem shortest_digits_pos {x : Binary64} (notZero : x.isZero = false) (tie : Tie) :
    0 < (x.shortest tie).digits := by
  have low := (readBackInterval_bounds notZero).1
  have inside := has_shortest notZero tie
  apply Nat.pos_of_ne_zero
  intro zero
  rw [zero, Nat.cast_zero, zero_mul, Interval.has] at inside
  split at inside <;> simp at inside <;> linarith

end Binary64

end ConfTree
