/-
Module: ConfTree.Proofs.Json.Evaluation
Purpose: Which literals stand for whole numbers, and that all others stand for finite reals.
Main exports:
  Json.Literal.wholeSize, Json.Literal.wholeNumber, Json.Literal.HoldsWhole,
  Json.Literal.value_eq_integer_iff, Json.Literal.value_ofInt,
  Json.Literal.Spells.eq_minusZero_iff, Json.Literal.isFinite_of_scale?,
  Json.Literal.finite_of_value
-/
import ConfTree.Proofs.Binary64.Rounding
import ConfTree.Proofs.Json.RealText

namespace ConfTree.Json.Literal

/-!
Digits are taken into a number as long as it stays below a limit.  None is left exactly if the
number of all digits is below it, since a number only grows with its digits.  So the reader
holds a whole number just in case the literal has neither fraction nor exponent and its digits
stay within the limit, which is half as great behind a minus sign.

Any other literal stands for a real, if for anything.  Multiplication by a power of ten is
refused when its result is infinite, and a division only makes a number smaller, as a power of
ten other than the first is at least two however it is rounded.
-/

/-! ### Digits that are taken -/

theorem le_ofDigitChars (digits : List Char) (number : Nat) :
    number ≤ Nat.ofDigitChars 10 digits number := by
  rw [Nat.ofDigitChars_eq_ofDigitChars_zero]
  have power : 0 < 10 ^ digits.length := Nat.pow_pos (by decide)
  exact Nat.le_add_right_of_le (Nat.le_mul_of_pos_left number power)

theorem ofDigitChars_cons (digit : Char) (others : List Char) (number : Nat) :
    Nat.ofDigitChars 10 (digit :: others) number =
      Nat.ofDigitChars 10 others (number * 10 + digitValue digit) := by
  rw [Nat.ofDigitChars_cons, Nat.mul_comm, digitValue]

/-- A number that takes in digits up to a limit stays below that limit. -/
theorem absorb_lt {limit number : Nat} (below : number < limit) (digits : List Char) :
    (absorb limit number digits).1 < limit := by
  fun_induction absorb limit number digits with
  | case1 number => exact below
  | case2 number digit others longer fits ih => exact ih fits
  | case3 number digit others longer reached => exact below

/-- Digits of a number below the limit are all taken into it. -/
theorem absorb_of_lt {limit number : Nat} {digits : List Char}
    (below : Nat.ofDigitChars 10 digits number < limit) :
    absorb limit number digits = (Nat.ofDigitChars 10 digits number, []) := by
  induction digits generalizing number with
  | nil => simp [absorb]
  | cons digit others ih =>
      rw [ofDigitChars_cons] at below ⊢
      have fits : number * 10 + digitValue digit < limit :=
        Nat.lt_of_le_of_lt (le_ofDigitChars others _) below
      rw [absorb, if_pos fits, ih below]

/-- Of the digits of a number that reaches the limit some are left. -/
theorem absorb_of_le {limit number : Nat} (below : number < limit) {digits : List Char}
    (reached : limit ≤ Nat.ofDigitChars 10 digits number) :
    (absorb limit number digits).2.isEmpty = false := by
  induction digits generalizing number with
  | nil => exact absurd below (Nat.not_lt.mpr reached)
  | cons digit others ih =>
      rw [ofDigitChars_cons] at reached
      rw [absorb]
      split
      case isTrue fits => exact ih fits reached
      case isFalse => rfl

/-! ### Whole numbers -/

/-- The number of the digits in front of the point. -/
def wholeSize (literal : Literal) : Nat := Nat.ofDigitChars 10 literal.whole 0

/-- The number of the digits in front of the point, with the sign of the literal. -/
def wholeNumber (literal : Literal) : Int :=
  if literal.negative then -(literal.wholeSize : Int) else literal.wholeSize

/-- The reader can hold the digits in front of the point as a whole number, which a zero with a
minus sign is not. -/
def HoldsWhole (literal : Literal) : Prop :=
  if literal.negative then 0 < literal.wholeSize ∧ literal.wholeSize ≤ negativeLimit
  else literal.wholeSize < significandLimit

variable {literal : Literal} {json : Json}

/-- A literal of nothing but digits that are within the limit stands for what is made of their
number. -/
theorem value_of_lt (noFraction : literal.fraction = none) (noExponent : literal.exponent = none)
    (below : literal.wholeSize < significandLimit) :
    literal.value = .ok (literal.integerValue literal.wholeSize) := by
  have absorbed : absorb significandLimit 0 literal.whole = (literal.wholeSize, []) :=
    absorb_of_lt below
  simp only [value, noFraction, noExponent, absorbed, List.isEmpty_nil, if_true]

/-- A literal of nothing but digits that are beyond the limit stands for a real, if for anything. -/
theorem real_of_le (noFraction : literal.fraction = none) (noExponent : literal.exponent = none)
    (reached : significandLimit ≤ literal.wholeSize) (stands : literal.value = .ok json) :
    ∃ number, json = .real number := by
  have left := absorb_of_le (by decide : 0 < significandLimit) reached
  simp only [value, noFraction, noExponent, left, Bool.false_eq_true, if_false] at stands
  exact real_of_realValue stands

theorem integerValue_eq_integer_iff (below : literal.wholeSize < significandLimit) {n : Int} :
    literal.integerValue literal.wholeSize = .integer n ↔
      literal.HoldsWhole ∧ literal.wholeNumber = n := by
  rw [integerValue, HoldsWhole, wholeNumber]
  cases literal.negative with
  | true =>
      by_cases holds : 0 < literal.wholeSize ∧ literal.wholeSize ≤ negativeLimit
      · simp [holds]
      · simp [holds]
  | false => simp [below]

/-- A literal stands for a whole number exactly if it has neither fraction nor exponent and the
reader can hold its number. -/
theorem value_eq_integer_iff {n : Int} :
    literal.value = .ok (.integer n) ↔
      literal.fraction = none ∧ literal.exponent = none ∧ literal.HoldsWhole ∧
        literal.wholeNumber = n := by
  by_cases fractional : literal.Fractional
  · have real : literal.value ≠ .ok (.integer n) := by
      intro stands
      obtain ⟨_, isReal⟩ := real_of_value fractional stands
      cases isReal
    apply iff_of_false real
    rintro ⟨noFraction, noExponent, _⟩
    simp [Fractional, noFraction, noExponent] at fractional
  · obtain ⟨noFraction, noExponent⟩ : literal.fraction = none ∧ literal.exponent = none := by
      simpa [Fractional] using fractional
    rcases Nat.lt_or_ge literal.wholeSize significandLimit with below | reached
    · rw [value_of_lt noFraction noExponent below, Except.ok.injEq,
        integerValue_eq_integer_iff below]
      exact ⟨fun holds => ⟨noFraction, noExponent, holds⟩, fun holds => holds.2.2⟩
    · have real : literal.value ≠ .ok (.integer n) := by
        intro stands
        obtain ⟨_, isReal⟩ := real_of_le noFraction noExponent reached stands
        cases isReal
      have beyond : ¬ literal.HoldsWhole := by
        have limits : negativeLimit < significandLimit := by decide
        rw [HoldsWhole]
        split <;> omega
      exact iff_of_false real (fun holds => beyond holds.2.2.1)

/-- The number by whose literal a whole number is written is that number. -/
theorem value_ofInt {n : Int} (least : -negativeLimit ≤ n) (greatest : n < significandLimit) :
    (ofInt n).value = .ok (.integer n) := by
  have size : (ofInt n).wholeSize = n.natAbs := Nat.ofDigitChars_ten_toDigits
  rw [value_eq_integer_iff, HoldsWhole, wholeNumber, size]
  refine ⟨rfl, rfl, ?_⟩
  by_cases negative : n < 0
  · simp only [ofInt, negative, decide_true, if_true]
    omega
  · simp only [ofInt, negative, decide_false, Bool.false_eq_true, if_false]
    omega

/-! ### Zero -/

/-- The digits in front of a point are those of zero only if there is one zero. -/
theorem Whole.eq_zero {digits : List Char} (whole : Whole digits)
    (zero : Nat.ofDigitChars 10 digits 0 = 0) : digits = ['0'] := by
  cases digits with
  | nil => exact absurd rfl whole.notNil
  | cons first others =>
      have value : digitValue first = 0 := by
        have least := le_ofDigitChars others (0 * 10 + digitValue first)
        rw [← ofDigitChars_cons] at least
        omega
      have isZero : first = '0' := by
        have isDigit := whole.areDigits first List.mem_cons_self
        have least : '0'.toNat ≤ first.toNat := (Char.isDigit_iff_toNat.mp isDigit).1
        exact Char.toNat_inj.mp (Nat.le_antisymm (Nat.sub_eq_zero_iff_le.mp value) least)
      rw [isZero] at whole ⊢
      rw [whole.noLeadingZero others rfl]

/-- A literal of nothing but digits is spelled `-0` exactly if its sign is minus and its number is
zero. -/
theorem Spells.eq_minusZero_iff {text : List Char} (spells : Spells text literal)
    (noFraction : literal.fraction = none) (noExponent : literal.exponent = none) :
    text = ['-', '0'] ↔ literal.negative ∧ literal.wholeSize = 0 := by
  obtain ⟨proper, power, spellsPower, rfl⟩ := spells
  rw [noExponent] at spellsPower
  cases spellsPower
  rw [noFraction, fractionText, List.append_nil, List.append_nil, wholeSize]
  have whole := proper.whole
  generalize literal.whole = digits at whole
  cases literal.negative with
  | true =>
      constructor
      · rintro ⟨⟩
        exact ⟨rfl, rfl⟩
      · rintro ⟨_, zero⟩
        rw [whole.eq_zero zero]
        rfl
  | false =>
      constructor
      · rintro rfl
        exact absurd (whole.areDigits '-' List.mem_cons_self) (by decide)
      · rintro ⟨⟨⟩, _⟩

/-! ### Reals -/

theorem isFinite_signed (literal : Literal) (x : Binary64) :
    (literal.signed x).isFinite = x.isFinite := by
  rw [signed]
  split
  · exact x.isFinite_negate
  · rfl

theorem isFinite_shrink {x : Binary64} (finite : x.isFinite) (times : Nat) :
    (shrink times x).isFinite := by
  induction times generalizing x with
  | zero => exact finite
  | succ times ih =>
      rw [shrink]
      split
      · exact finite
      · apply ih
        exact Binary64.isFinite_dividedBy finite (Binary64.two_le_absValue_powerOfTen (by decide))

/-- A finite number that can be scaled by a power of ten stays finite. -/
theorem isFinite_of_scale? {x scaled : Binary64} (finite : x.isFinite) {exponent : Int}
    (scales : scale? x exponent = some scaled) : scaled.isFinite := by
  rw [scale?] at scales
  split at scales
  case isTrue upward =>
    split at scales
    case isTrue within =>
      dsimp only at scales
      split at scales
      case isTrue => cases scales
      case isFalse notInfinite =>
        cases scales
        rw [Bool.not_eq_true] at notInfinite
        exact Binary64.isFinite_iff.mpr ⟨Binary64.isNaN_nearest _ _, notInfinite⟩
    case isFalse beyond =>
      split at scales
      · cases scales
        exact finite
      · cases scales
  case isFalse downward =>
    cases scales
    -- The powers of ten are used up but for one at least.
    have places : 0 < exponent.natAbs - 308 * ((exponent.natAbs - 1) / 308) := by omega
    exact Binary64.isFinite_dividedBy (isFinite_shrink finite _)
      (Binary64.two_le_absValue_powerOfTen places)

/-- The ways in which a literal is evaluated. -/
theorem value_cases (stands : literal.value = .ok json) :
    (∃ significand < significandLimit, json = literal.integerValue significand) ∨
      (∃ significand < significandLimit, ∃ exponent,
        literal.realValue significand exponent = .ok json) ∨
      json = .real (literal.signed (.ofNat 0)) := by
  have leading := absorb_lt (by decide : 0 < significandLimit) literal.whole
  have following := absorb_lt leading (literal.fraction.getD [])
  dsimp only [value] at stands
  split at stands
  case h_1 =>
    split at stands
    · exact .inl ⟨_, leading, (Except.ok.inj stands).symm⟩
    · exact .inr (.inl ⟨_, leading, _, stands⟩)
  case h_2 =>
    split at stands
    case h_1 => exact .inr (.inl ⟨_, following, _, stands⟩)
    case h_2 =>
      split at stands
      case h_1 => exact .inr (.inl ⟨_, following, _, stands⟩)
      case h_2 =>
        split at stands
        · exact .inr (.inr (Except.ok.inj stands).symm)
        · cases stands

/-- A literal stands for a whole number of at most 64 bits or for a finite real. -/
theorem finite_of_value (stands : literal.value = .ok json) :
    (∃ number : Int, json = .integer number ∧ number.natAbs < significandLimit) ∨
      ∃ number, json = .real number ∧ number.isFinite := by
  have rounded : ∀ x : Binary64, x.isFinite →
      ∃ number, Json.real (literal.signed x) = .real number ∧ number.isFinite :=
    fun x finite => ⟨_, rfl, (literal.isFinite_signed x).trans finite⟩
  rcases value_cases stands with ⟨significand, small, rfl⟩ | ⟨significand, small, _, scales⟩ | rfl
  · have size : (-(significand : Int)).natAbs < significandLimit := by omega
    rw [integerValue]
    split
    · split
      · exact .inl ⟨_, rfl, size⟩
      · exact .inr (rounded _ (Binary64.isFinite_nearest_natCast _ small))
    · exact .inl ⟨_, rfl, small⟩
  · rw [realValue] at scales
    split at scales
    case h_1 scaled found =>
      cases scales
      exact .inr (rounded scaled (isFinite_of_scale? (Binary64.isFinite_nearest_natCast _ small) found))
    case h_2 => cases scales
  · exact .inr (rounded _ (Binary64.isFinite_nearest_natCast _ (by decide)))

end ConfTree.Json.Literal
