/-
Module: ConfTree.Proofs.Binary64.Rounding
Purpose: Rounding gives a number, and a finite one as long as what is rounded is not too great.
Main exports:
  floorLog2_bounds, roundHalfEven_le, le_roundHalfEven, Binary64.isFinite_iff,
  Binary64.isNaN_nearest, Binary64.isFinite_nearest, Binary64.absValue_lt_of_isFinite,
  Binary64.two_le_absValue_nearest, Binary64.isFinite_dividedBy
-/
import ConfTree.Binary64.Rounding
import ConfTree.Proofs.Binary64.Shortest

namespace ConfTree

/-!
The magnitude of a rounded number is put together from its power of two and its rounded
significand.  The power is that of the logarithm of the exact number, and the rounding of the
significand does not pass a whole number.  So a bound by a power of two on the exact number is
one on the magnitude: below the power of two of 1023 the magnitude stays below that of infinity,
and from two on the number that was rounded to is at least two.

That is what a division needs: every finite number is below the power of two of 1024, and a
divisor that is at least two brings it into the range again.
-/

/-! ### Logarithm -/

theorem zpow_log2_le {n : Nat} (positive : 0 < n) : (2 : Rat) ^ (n.log2 : Int) ≤ n := by
  rw [zpow_natCast]
  exact_mod_cast Nat.log2_self_le positive.ne'

theorem lt_zpow_log2 (n : Nat) : (n : Rat) < (2 : Rat) ^ ((n.log2 : Int) + 1) := by
  have above : n < 2 ^ (n.log2 + 1) := Nat.lt_log2_self
  rw [← Nat.cast_succ, zpow_natCast]
  exact_mod_cast above

/-- The logarithms of numerator and denominator tell that of their quotient but for one. -/
theorem quotient_bounds {n d : Nat} (numerator : 0 < n) (denominator : 0 < d) :
    (2 : Rat) ^ ((n.log2 : Int) - d.log2 - 1) ≤ (n : Rat) / d ∧
      (n : Rat) / d < (2 : Rat) ^ ((n.log2 : Int) - d.log2 + 1) := by
  have positive : (0 : Rat) < d := by exact_mod_cast denominator
  have two : (2 : Rat) ≠ 0 := by norm_num
  constructor
  · rw [le_div_iff₀ positive]
    calc (2 : Rat) ^ ((n.log2 : Int) - d.log2 - 1) * d
        ≤ (2 : Rat) ^ ((n.log2 : Int) - d.log2 - 1) * (2 : Rat) ^ ((d.log2 : Int) + 1) :=
          mul_le_mul_of_nonneg_left (lt_zpow_log2 d).le (by positivity)
      _ = (2 : Rat) ^ (n.log2 : Int) := by
          rw [← zpow_add₀ two]
          congr 1
          omega
      _ ≤ n := zpow_log2_le numerator
  · rw [div_lt_iff₀ positive]
    calc (n : Rat) < (2 : Rat) ^ ((n.log2 : Int) + 1) := lt_zpow_log2 n
      _ = (2 : Rat) ^ ((n.log2 : Int) - d.log2 + 1) * (2 : Rat) ^ (d.log2 : Int) := by
          rw [← zpow_add₀ two]
          congr 1
          omega
      _ ≤ (2 : Rat) ^ ((n.log2 : Int) - d.log2 + 1) * d :=
          mul_le_mul_of_nonneg_left (zpow_log2_le denominator) (by positivity)

theorem floorLog2_bounds {x : Rat} (positive : 0 < x) :
    (2 : Rat) ^ floorLog2 x ≤ x ∧ x < (2 : Rat) ^ (floorLog2 x + 1) := by
  have numerator : 0 < x.num := Rat.num_pos.mpr positive
  have quotient : (x.num.toNat : Rat) / x.den = x := by
    have same : ((x.num.toNat : Int) : Rat) = x.num := by rw [Int.toNat_of_nonneg numerator.le]
    rw [← Int.cast_natCast, same, Rat.num_div_den]
  have bounds := quotient_bounds (n := x.num.toNat) (by omega) x.den_pos
  rw [quotient] at bounds
  rw [floorLog2]
  split
  case isTrue reached => exact ⟨reached, bounds.2⟩
  case isFalse missed =>
    rw [Int.sub_add_cancel]
    exact ⟨bounds.1, not_le.mp missed⟩

/-- The logarithm is at most a number below whose next power of two the argument is. -/
theorem floorLog2_le {x : Rat} (positive : 0 < x) {power : Int}
    (below : x < (2 : Rat) ^ (power + 1)) : floorLog2 x ≤ power := by
  have least := (floorLog2_bounds positive).1.trans_lt below
  have exponents := (zpow_lt_zpow_iff_right₀ (by norm_num : (1 : Rat) < 2)).mp least
  omega

/-- The logarithm is at least a number whose power of two the argument reaches. -/
theorem le_floorLog2 {x : Rat} {power : Int} (reached : (2 : Rat) ^ power ≤ x) :
    power ≤ floorLog2 x := by
  have positive : 0 < x := lt_of_lt_of_le (by positivity) reached
  have greatest := reached.trans_lt (floorLog2_bounds positive).2
  have exponents := (zpow_lt_zpow_iff_right₀ (by norm_num : (1 : Rat) < 2)).mp greatest
  omega

/-! ### Whole numbers -/

theorem roundHalfEven_le {x : Rat} {n : Int} (atMost : x ≤ n) : roundHalfEven x ≤ n := by
  have floor : x.floor ≤ n := by
    have below : (x.floor : Rat) ≤ n := (Rat.floor_le x).trans atMost
    exact_mod_cast below
  rw [roundHalfEven]
  rcases floor.lt_or_eq with below | same
  · split_ifs <;> omega
  · -- The number is whole, so nothing is left to round up.
    have whole : x - x.floor < 1 / 2 := by
      rw [same]
      linarith
    rw [if_pos whole]
    exact same.le

theorem le_roundHalfEven {x : Rat} {n : Int} (atLeast : (n : Rat) ≤ x) : n ≤ roundHalfEven x := by
  have floor : n ≤ x.floor := Rat.le_floor_iff.mpr atLeast
  rw [roundHalfEven]
  split_ifs <;> omega

namespace Binary64

/-! ### Classes -/

theorem magnitude_ofMagnitude (negative : Bool) (magnitude : Nat) :
    (ofMagnitude negative magnitude).magnitude = magnitude % signWeight := by
  have weight : signWeight = 9223372036854775808 := rfl
  rw [Binary64.magnitude, ofMagnitude, UInt64.toNat_ofNat', weight]
  cases negative <;> simp

theorem magnitude_negate (x : Binary64) : x.negate.magnitude = x.magnitude := by
  have small : x.magnitude < signWeight := Nat.mod_lt _ (by decide)
  rw [negate, magnitude_ofMagnitude, Nat.mod_eq_of_lt small]

theorem isFinite_negate (x : Binary64) : x.negate.isFinite = x.isFinite := by
  rw [isFinite, magnitude_negate, isFinite]

/-- A finite number is neither infinite nor something else than a number. -/
theorem isFinite_iff {x : Binary64} : x.isFinite ↔ x.isNaN = false ∧ x.isInfinite = false := by
  simp only [isFinite, isNaN, isInfinite, decide_eq_true_eq, decide_eq_false_iff_not, Nat.not_lt,
    beq_eq_false_iff_ne]
  omega

/-! ### Rounded numbers -/

theorem nearestMagnitude_le (x : Rat) : nearestMagnitude x ≤ infinityMagnitude := by
  rw [nearestMagnitude]
  split
  · exact Nat.zero_le _
  · exact Nat.min_le_right _ _

theorem magnitude_nearest (negative : Bool) (size : Rat) :
    (nearest negative size).magnitude = nearestMagnitude size := by
  have limits : infinityMagnitude < signWeight := by decide
  rw [nearest, magnitude_ofMagnitude]
  exact Nat.mod_eq_of_lt ((nearestMagnitude_le size).trans_lt limits)

/-- A rounded number is a number. -/
theorem isNaN_nearest (negative : Bool) (size : Rat) : (nearest negative size).isNaN = false := by
  rw [isNaN, magnitude_nearest, decide_eq_false_iff_not, Nat.not_lt]
  exact nearestMagnitude_le size

theorem nearestMagnitude_lt {x : Rat} (small : x < (2 : Rat) ^ (1023 : Int)) :
    nearestMagnitude x < infinityMagnitude := by
  rw [nearestMagnitude]
  split
  case isTrue => decide
  case isFalse positive =>
    extract_lets power significand
    have positive : 0 < x := not_le.mp positive
    have logarithm : floorLog2 x ≤ 1022 := floorLog2_le positive small
    have significandBound : significand ≤ 2 * fractionCount := by
      have scaled : x * (2 : Rat) ^ (-power) ≤ ((2 * fractionCount : Nat) : Int) :=
        calc x * (2 : Rat) ^ (-power)
            ≤ (2 : Rat) ^ (floorLog2 x + 1) * (2 : Rat) ^ (-power) :=
              mul_le_mul_of_nonneg_right (floorLog2_bounds positive).2.le (by positivity)
          _ = (2 : Rat) ^ (floorLog2 x + 1 - power) := by
              rw [← zpow_add₀ (by norm_num), Int.sub_eq_add_neg]
          _ ≤ (2 : Rat) ^ (53 : Int) := zpow_le_zpow_right₀ (by norm_num) (by omega)
          _ = ((2 * fractionCount : Nat) : Int) := by norm_num [fractionCount]
      exact Int.toNat_le.mpr (roundHalfEven_le scaled)
    have powerBound : (power + 1074).toNat ≤ 2044 := by omega
    have count : 0 < fractionCount := by decide
    have fields := Nat.mul_le_mul_right fractionCount powerBound
    rw [infinityMagnitude, topExponent]
    omega

theorem le_nearestMagnitude {x : Rat} (large : 2 ≤ x) :
    1024 * fractionCount ≤ nearestMagnitude x := by
  have positive : 0 < x := by linarith
  rw [nearestMagnitude, if_neg (not_le.mpr positive)]
  extract_lets power significand
  have logarithm : 1 ≤ floorLog2 x := le_floorLog2 (by simpa using large)
  have isPower : power = floorLog2 x - 52 := by omega
  have significandBound : fractionCount ≤ significand := by
    have scaled : ((fractionCount : Int) : Rat) ≤ x * (2 : Rat) ^ (-power) :=
      calc ((fractionCount : Int) : Rat) = (2 : Rat) ^ (52 : Int) := by norm_num [fractionCount]
        _ = (2 : Rat) ^ floorLog2 x * (2 : Rat) ^ (-power) := by
            rw [← zpow_add₀ (by norm_num), isPower]
            congr 1
            omega
        _ ≤ x * (2 : Rat) ^ (-power) :=
            mul_le_mul_of_nonneg_right (floorLog2_bounds positive).1 (by positivity)
    have rounded := le_roundHalfEven scaled
    omega
  have powerBound : 1023 ≤ (power + 1074).toNat := by omega
  have fields := Nat.mul_le_mul_right fractionCount powerBound
  rw [infinityMagnitude, topExponent]
  omega

/-- What is below the power of two of 1023 is rounded to a finite number. -/
theorem isFinite_nearest (negative : Bool) {size : Rat} (small : size < (2 : Rat) ^ (1023 : Int)) :
    (nearest negative size).isFinite := by
  rw [isFinite, magnitude_nearest, decide_eq_true_eq]
  exact nearestMagnitude_lt small

/-! ### Sizes -/

/-- No finite number reaches the power of two of 1024. -/
theorem absValue_lt_of_isFinite {x : Binary64} (finite : x.isFinite) :
    x.absValue < (2 : Rat) ^ (1024 : Int) := by
  have magnitude : x.magnitude < fractionCount * 2047 := by
    simpa [isFinite, infinityMagnitude, topExponent, Nat.mul_comm] using finite
  have exponentBound : x.exponentField < 2047 := Nat.div_lt_of_lt_mul magnitude
  have powerBound : x.power ≤ 971 := by
    rw [power]
    omega
  have significandBound : x.significand < 2 * fractionCount := by
    have fraction : x.fractionField < fractionCount := Nat.mod_lt _ (by decide)
    rw [significand]
    split <;> omega
  have bound : (x.significand : Rat) < (2 : Rat) ^ (53 : Int) :=
    calc (x.significand : Rat) < (2 * fractionCount : Nat) := by exact_mod_cast significandBound
      _ = (2 : Rat) ^ (53 : Int) := by norm_num [fractionCount]
  calc x.absValue = x.significand * (2 : Rat) ^ x.power := rfl
    _ < (2 : Rat) ^ (53 : Int) * (2 : Rat) ^ x.power :=
        mul_lt_mul_of_pos_right bound (by positivity)
    _ ≤ (2 : Rat) ^ (53 : Int) * (2 : Rat) ^ (971 : Int) := by
        apply mul_le_mul_of_nonneg_left _ (by positivity)
        exact zpow_le_zpow_right₀ (by norm_num) powerBound
    _ = (2 : Rat) ^ (1024 : Int) := by
        rw [← zpow_add₀ (by norm_num)]
        norm_num

/-- What is at least two is rounded to a number that is at least two. -/
theorem two_le_absValue_nearest (negative : Bool) {size : Rat} (large : 2 ≤ size) :
    2 ≤ (nearest negative size).absValue := by
  have exponentBound : 1024 ≤ (nearest negative size).exponentField := by
    rw [exponentField, magnitude_nearest]
    exact (Nat.le_div_iff_mul_le (by decide)).mpr (le_nearestMagnitude large)
  generalize nearest negative size = x at exponentBound ⊢
  have powerBound : -51 ≤ x.power := by
    rw [power]
    omega
  have significandBound : fractionCount ≤ x.significand := by
    rw [significand, if_neg (by omega)]
    exact Nat.le_add_right _ _
  calc (2 : Rat) = (2 : Rat) ^ (52 : Int) * (2 : Rat) ^ (-51 : Int) := by norm_num
    _ ≤ (2 : Rat) ^ (52 : Int) * (2 : Rat) ^ x.power := by
        apply mul_le_mul_of_nonneg_left _ (by positivity)
        exact zpow_le_zpow_right₀ (by norm_num) powerBound
    _ = (fractionCount : Nat) * (2 : Rat) ^ x.power := by norm_num [fractionCount]
    _ ≤ x.significand * (2 : Rat) ^ x.power := by
        apply mul_le_mul_of_nonneg_right _ (by positivity)
        exact_mod_cast significandBound

/-- A whole number of at most 64 bits is rounded to a finite number. -/
theorem isFinite_nearest_natCast (negative : Bool) {n : Nat} (small : n < 2 ^ 64) :
    (nearest negative (n : Rat)).isFinite := by
  apply isFinite_nearest
  calc (n : Rat) < (2 : Rat) ^ (64 : Int) := by exact_mod_cast small
    _ ≤ (2 : Rat) ^ (1023 : Int) := zpow_le_zpow_right₀ (by norm_num) (by norm_num)

/-- A power of ten other than the first is rounded to a number that is at least two. -/
theorem two_le_absValue_powerOfTen {exponent : Nat} (positive : 0 < exponent) :
    2 ≤ (powerOfTen exponent).absValue := by
  apply two_le_absValue_nearest
  have ten : 10 ^ 1 ≤ 10 ^ exponent := Nat.pow_le_pow_right (by decide) positive
  have two : 2 ≤ Nat.pow 10 exponent := Nat.le_trans (by decide) ten
  exact_mod_cast two

/-- A finite number stays finite if it is divided by one that is at least two. -/
theorem isFinite_dividedBy {x y : Binary64} (finite : x.isFinite) (divisor : 2 ≤ y.absValue) :
    (x.dividedBy y).isFinite := by
  rw [dividedBy]
  apply isFinite_nearest
  rw [div_lt_iff₀ (by linarith)]
  calc x.absValue < (2 : Rat) ^ (1024 : Int) := absValue_lt_of_isFinite finite
    _ = (2 : Rat) ^ (1023 : Int) * 2 := zpow_add_one₀ (by norm_num) 1023
    _ ≤ (2 : Rat) ^ (1023 : Int) * y.absValue :=
        mul_le_mul_of_nonneg_left divisor (by positivity)

end Binary64

end ConfTree
