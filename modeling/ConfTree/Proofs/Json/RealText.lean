/-
Module: ConfTree.Proofs.Json.RealText
Purpose: A real number is written by a literal that is not that of a whole number.
Main exports:
  Json.Literal.ofReal, Json.Literal.proper_ofReal, Json.Literal.written_ofReal,
  Json.Literal.Fractional, Json.Literal.fractional_ofReal, Json.Literal.real_of_value
-/
import ConfTree.Proofs.Binary64.Shortest
import ConfTree.Proofs.Json.Literal

namespace ConfTree.Json.Literal

/-!
The kind of a number is not written: a reader tells a real from a whole number by its
fraction or its exponent.  So every real must be written with one of them.  The positional
form has a point even for whole reals, and the other form has an exponent even where it has no
point.  That the text is one literal rests on the digits of the shortest decimal: zeros may be
put behind them, as long as there is another digit in front.
-/

/-! ### The parts of a decimal -/

/-- The literal of a decimal without an exponent. -/
def ofPositional (negative : Bool) (d : Decimal) : Literal :=
  let digits := digitChars d.digits
  let point := d.exponent + digits.length
  if 0 ≤ d.exponent then
    ⟨negative, digits ++ List.replicate d.exponent.toNat '0', some ['0'], none⟩
  else if 0 < point then
    ⟨negative, digits.take point.toNat, some (digits.drop point.toNat), none⟩
  else
    ⟨negative, ['0'], some (List.replicate (-point).toNat '0' ++ digits), none⟩

/-- The literal of a decimal with one digit in front of the point. -/
def ofScientific (negative : Bool) (d : Decimal) : Literal where
  negative := negative
  whole := (digitChars d.digits).take 1
  fraction :=
    match (digitChars d.digits).drop 1 with
    | [] => none
    | behind => some behind
  exponent := some (d.leadingPower < 0, digitChars d.leadingPower.natAbs)

/-- The literal of a decimal in the form that is used for its size. -/
def ofDecimal (negative : Bool) (d : Decimal) : Literal :=
  if -5 ≤ d.leadingPower ∧ d.leadingPower ≤ 15 then ofPositional negative d
  else ofScientific negative d

/-- The literal by which a finite real is written. -/
def ofReal (x : Binary64) : Literal :=
  if x.isZero then ⟨x.isNegative, ['0'], some ['0'], none⟩
  else ofDecimal x.isNegative (x.shortest numberStyle.tie)

theorem size_ofPositional (negative : Bool) (d : Decimal) :
    (ofPositional negative d).size = d.positional numberStyle.wholeEnding := by
  simp only [ofPositional, Decimal.positional]
  split
  · simp [size, fractionText, exponentText, numberStyle]
  · split <;> simp [size, fractionText, exponentText]

theorem size_ofScientific (negative : Bool) (d : Decimal) :
    (ofScientific negative d).size = d.scientific := by
  have letter : exponentText (some (decide (d.leadingPower < 0), digitChars d.leadingPower.natAbs)) =
      'e' :: Decimal.exponentText d.leadingPower := by
    simp [exponentText, Decimal.exponentText]
  simp only [ofScientific, size, Decimal.scientific, letter]
  cases digitChars d.digits with
  | nil => simp [fractionText]
  | cons first others => cases others <;> simp [fractionText]

theorem size_ofDecimal (negative : Bool) (d : Decimal) :
    (ofDecimal negative d).size = d.text numberStyle := by
  have positional := size_ofPositional negative d
  have scientific := size_ofScientific negative d
  simp only [ofDecimal, Decimal.text, numberStyle] at positional ⊢
  by_cases bounds : -5 ≤ d.leadingPower ∧ d.leadingPower ≤ 15
  · simpa only [if_pos bounds] using positional
  · simpa only [if_neg bounds] using scientific

theorem negative_ofReal (x : Binary64) : (ofReal x).negative = x.isNegative := by
  simp only [ofReal, ofDecimal, ofPositional, ofScientific]
  split_ifs <;> rfl

/-- The text of a real is that of its literal. -/
theorem written_ofReal (x : Binary64) : (ofReal x).written = x.text numberStyle := by
  have sizes : (ofReal x).size = x.absText numberStyle := by
    rw [ofReal, Binary64.absText]
    cases x.isZero with
    | true => rfl
    | false => exact size_ofDecimal _ _
  rw [written, negative_ofReal, sizes, Binary64.text]

/-! ### Its digits -/

theorem proper_ofPositional (negative : Bool) {d : Decimal} (positive : 0 < d.digits) :
    (ofPositional negative d).Proper := by
  obtain ⟨first, others, digits, notZero⟩ := digitChars_eq_cons positive
  have areDigits : ∀ c ∈ first :: others, c.isDigit := by
    rw [← digits]
    exact (Digits.digitChars d.digits).areDigits
  have zeros : ∀ count, ∀ c ∈ List.replicate count '0', c.isDigit := by
    intro count c isZero
    rw [List.eq_of_mem_replicate isZero]
    rfl
  simp only [ofPositional, digits]
  split_ifs with whole behind
  · refine ⟨.of_first notZero ?_, ?_, nofun⟩
    · exact List.forall_mem_append.mpr ⟨areDigits, zeros _⟩
    · rintro _ ⟨⟩
      exact Whole.zero.toDigits
  · obtain ⟨places, point⟩ : ∃ places : Nat,
        (d.exponent + (first :: others).length).toNat = places + 1 :=
      Nat.exists_eq_succ_of_ne_zero (by omega)
    have short : places + 1 < (first :: others).length := by omega
    rw [point]
    refine ⟨.of_first notZero ?_, ?_, nofun⟩
    · intro c member
      rw [← List.take_succ_cons] at member
      exact areDigits c (List.mem_of_mem_take member)
    · rintro _ ⟨⟩
      refine ⟨?_, fun c member => areDigits c (List.mem_of_mem_drop member)⟩
      rw [ne_eq, List.drop_eq_nil_iff]
      omega
  · refine ⟨.zero, ?_, nofun⟩
    rintro _ ⟨⟩
    exact ⟨by simp, List.forall_mem_append.mpr ⟨zeros _, areDigits⟩⟩

theorem proper_ofScientific (negative : Bool) {d : Decimal} (positive : 0 < d.digits) :
    (ofScientific negative d).Proper := by
  obtain ⟨first, others, digits, notZero⟩ := digitChars_eq_cons positive
  have areDigits : ∀ c ∈ first :: others, c.isDigit := by
    rw [← digits]
    exact (Digits.digitChars d.digits).areDigits
  obtain ⟨firstDigit, otherDigits⟩ := List.forall_mem_cons.mp areDigits
  refine ⟨?_, ?_, ?_⟩
  · simp only [ofScientific, digits]
    exact .of_first notZero (List.forall_mem_singleton.mpr firstDigit)
  · intro behind isFraction
    simp only [ofScientific, digits, List.drop_succ_cons, List.drop_zero] at isFraction
    cases others with
    | nil => cases isFraction
    | cons second rest =>
        cases isFraction
        exact ⟨by simp, otherDigits⟩
  · rintro _ _ ⟨⟩
    exact .digitChars _

/-- The literal of a real has digits wherever it must. -/
theorem proper_ofReal (x : Binary64) : (ofReal x).Proper := by
  rw [ofReal]
  cases zero : x.isZero with
  | true =>
      refine ⟨.zero, ?_, nofun⟩
      rintro _ ⟨⟩
      exact Whole.zero.toDigits
  | false =>
      have positive := Binary64.shortest_digits_pos zero numberStyle.tie
      simp only [ofDecimal, Bool.false_eq_true, if_false]
      split
      · exact proper_ofPositional _ positive
      · exact proper_ofScientific _ positive

/-! ### Its kind -/

/-- The literal has a fraction or an exponent. -/
def Fractional (literal : Literal) : Prop :=
  literal.fraction.isSome ∨ literal.exponent.isSome

/-- Every real is written with a fraction or with an exponent. -/
theorem fractional_ofReal (x : Binary64) : (ofReal x).Fractional := by
  simp only [ofReal, ofDecimal, ofPositional, ofScientific]
  split_ifs <;> simp [Fractional]

theorem real_of_realValue {literal : Literal} {significand : Nat} {exponent : Int} {json : Json}
    (stands : literal.realValue significand exponent = .ok json) :
    ∃ number, json = .real number := by
  rw [realValue] at stands
  split at stands
  · cases stands
    exact ⟨_, rfl⟩
  · cases stands

/-- A literal with a fraction or an exponent stands for a real, if for anything. -/
theorem real_of_value {literal : Literal} (fractional : literal.Fractional) {json : Json}
    (stands : literal.value = .ok json) : ∃ number, json = .real number := by
  dsimp only [value] at stands
  split at stands
  case h_1 noFraction noExponent => simp [Fractional, noFraction, noExponent] at fractional
  case h_2 =>
    split at stands
    case h_1 => exact real_of_realValue stands
    case h_2 =>
      split at stands
      case h_1 => exact real_of_realValue stands
      case h_2 =>
        split at stands
        · cases stands
          exact ⟨_, rfl⟩
        · cases stands

end ConfTree.Json.Literal
