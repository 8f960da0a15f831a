/-
Module: ConfTree.Proofs.Value.Numbers
Purpose: Which texts of numbers are read as integers, and that the others are read as finite reals.
Main exports:
  Value.ofWhole_eq_integer_iff, Value.read_literal_eq_ok_iff, Value.read_literal_eq_integer_iff,
  Value.isFinite_of_read_literal, Value.read_literal_classified
-/
import ConfTree.Proofs.Json.Evaluation
import ConfTree.Proofs.Json.Rereading
import ConfTree.Proofs.Value.RoundTrip

namespace ConfTree.Value

/-!
A number goes through three hands.  The literal is evaluated to a whole number of up to 64 bits
or to a real, the whole number is an integer if it fits 64 bits with sign, and what does not is
rounded.  The limits of the first step are wider than those of the second but for minus zero,
which is a real from the beginning.  So the second limits and minus zero are all that is left to
see from outside.
-/

open Json (Literal)

/-! ### Whole numbers -/

theorem ofWhole_eq_integer_iff {number : Int} {n : Int64} :
    ofWhole number = .integer n ↔ number = n.toInt := by
  constructor
  · intro same
    rw [ofWhole] at same
    split at same
    case isTrue inRange =>
      rw [← integer.inj same]
      exact (Int64.toInt_ofInt_of_le inRange.1 (Int.lt_of_le_of_lt inRange.2 (by decide))).symm
    case isFalse => cases same
  · rintro rfl
    exact ofWhole_toInt n

/-- A whole number of at most 64 bits becomes an integer or a finite real. -/
theorem isFinite_ofWhole {number : Int} (small : number.natAbs < Literal.significandLimit) :
    (∃ n, ofWhole number = .integer n) ∨ ∃ x, ofWhole number = .real x ∧ x.isFinite := by
  rw [ofWhole]
  split
  · exact .inl ⟨_, rfl⟩
  · refine .inr ⟨_, rfl, ?_⟩
    exact Binary64.isFinite_nearest_natCast _ small

/-! ### Texts of numbers -/

variable {strategy : Strategy} {text : String} {literal : Literal} {value : Value}

/-- What is read from the text of a number is what the literal stands for. -/
theorem read_literal_eq_ok_iff (spells : literal.Spells text.toList) :
    Value.read strategy text = .ok value ↔
      (∃ number, literal.value = .ok (.integer number) ∧ value = ofWhole number) ∨
        ∃ x, literal.value = .ok (.real x) ∧ value = .real x := by
  have reads (json : Json) : Json.read text = .ok json ↔ literal.value = .ok json := by
    rw [← Json.read_spelled_eq_ok_iff spells, String.ofList_toList]
  constructor
  · intro readsValue
    rw [Value.read] at readsValue
    split at readsValue
    case h_1 json found =>
      have stands := (reads json).mp found
      rw [ofJson] at readsValue
      rcases Literal.finite_of_value stands with ⟨number, rfl, _⟩ | ⟨x, rfl, _⟩
      · rw [convert] at readsValue
        exact .inl ⟨number, stands, (Except.ok.inj readsValue).symm⟩
      · rw [convert] at readsValue
        exact .inr ⟨x, stands, (Except.ok.inj readsValue).symm⟩
    case h_2 => cases readsValue
  · rintro (⟨number, stands, rfl⟩ | ⟨x, stands, rfl⟩)
    · rw [Value.read, (reads _).mpr stands]
      simp only [ofJson, convert]
    · rw [Value.read, (reads _).mpr stands]
      simp only [ofJson, convert]

/-- A text is read as an integer exactly if the literal stands for the number of that integer. -/
theorem read_literal_eq_integer_iff_value (spells : literal.Spells text.toList) {n : Int64} :
    Value.read strategy text = .ok (.integer n) ↔ literal.value = .ok (.integer n.toInt) := by
  rw [read_literal_eq_ok_iff spells]
  constructor
  · rintro (⟨number, stands, same⟩ | ⟨_, _, ⟨⟩⟩)
    rwa [← ofWhole_eq_integer_iff.mp same.symm]
  · intro stands
    exact .inl ⟨n.toInt, stands, (ofWhole_toInt n).symm⟩

/-- Of the numbers that fit 64 bits with sign, the reader holds all but minus zero. -/
theorem holdsWhole_iff {n : Int64} (number : literal.wholeNumber = n.toInt) :
    literal.HoldsWhole ↔ ¬ (literal.negative ∧ literal.wholeSize = 0) := by
  have limits : (Literal.negativeLimit : Int) = 9223372036854775808 ∧
      (Literal.significandLimit : Int) = 18446744073709551616 := by decide
  have least := n.le_toInt
  have greatest := n.toInt_lt
  rw [Literal.wholeNumber] at number
  rw [Literal.HoldsWhole]
  cases negative : literal.negative with
  | true =>
      simp only [negative, if_true, true_and] at number ⊢
      omega
  | false =>
      simp only [negative, Bool.false_eq_true, if_false, false_and, not_false_eq_true,
        iff_true] at number ⊢
      omega

/-- A text is read as an integer exactly if its literal has nothing but digits, whose number is that
of the integer, and is not minus zero. -/
theorem read_literal_eq_integer_iff (spells : literal.Spells text.toList) {n : Int64} :
    Value.read strategy text = .ok (.integer n) ↔
      literal.fraction = none ∧ literal.exponent = none ∧ text ≠ "-0" ∧
        literal.wholeNumber = n.toInt := by
  have minusZero : text = "-0" ↔ text.toList = ['-', '0'] := String.toList_inj.symm
  rw [read_literal_eq_integer_iff_value spells, Literal.value_eq_integer_iff]
  constructor
  · rintro ⟨noFraction, noExponent, holds, number⟩
    refine ⟨noFraction, noExponent, ?_, number⟩
    rw [ne_eq, minusZero, spells.eq_minusZero_iff noFraction noExponent]
    exact (holdsWhole_iff number).mp holds
  · rintro ⟨noFraction, noExponent, notMinusZero, number⟩
    refine ⟨noFraction, noExponent, ?_, number⟩
    rw [ne_eq, minusZero, spells.eq_minusZero_iff noFraction noExponent] at notMinusZero
    exact (holdsWhole_iff number).mpr notMinusZero

/-- A value that is read from the text of a number is an integer or a finite real. -/
theorem isFinite_of_read_literal (spells : literal.Spells text.toList)
    (reads : Value.read strategy text = .ok value) :
    (∃ n, value = .integer n) ∨ ∃ x, value = .real x ∧ x.isFinite := by
  rcases (read_literal_eq_ok_iff spells).mp reads with ⟨number, stands, rfl⟩ | ⟨x, stands, rfl⟩
  · rcases Literal.finite_of_value stands with ⟨_, ⟨⟩, small⟩ | ⟨_, ⟨⟩, _⟩
    exact isFinite_ofWhole small
  · rcases Literal.finite_of_value stands with ⟨_, ⟨⟩, _⟩ | ⟨_, ⟨⟩, finite⟩
    exact .inr ⟨x, rfl, finite⟩

/-- The text of a number is read as an integer exactly if it has neither fraction nor exponent,
is not minus zero and its number is that of an integer of 64 bits with sign.  Whatever else is
read from such a text is a real, which is neither infinite nor something else than a number. -/
theorem read_literal_classified (strategy : Strategy) {text : String} {literal : Literal}
    (spells : literal.Spells text.toList) :
    (∀ n : Int64, Value.read strategy text = .ok (.integer n) ↔
      literal.fraction = none ∧ literal.exponent = none ∧ text ≠ "-0" ∧
        literal.wholeNumber = n.toInt) ∧
    ∀ value, Value.read strategy text = .ok value →
      (∃ n, value = .integer n) ∨
        ∃ x, value = .real x ∧ x.isNaN = false ∧ x.isInfinite = false := by
  refine ⟨fun n => read_literal_eq_integer_iff spells, ?_⟩
  intro value reads
  refine (isFinite_of_read_literal spells reads).imp_right ?_
  rintro ⟨x, isReal, finite⟩
  exact ⟨x, isReal, Binary64.isFinite_iff.mp finite⟩

/-- The literal of a hundred that is written with an exponent. -/
def hundred : Literal := ⟨false, ['1'], none, some (false, ['2'])⟩

/-- The least integer of 64 bits is read as an integer, one more than the greatest is not, and
neither is a hundred with an exponent, which is spelled with a capital letter here. -/
theorem read_literal_classified_edges :
    Value.read .ordered "-9223372036854775808" = .ok (.integer Int64.minValue) ∧
    (∀ n, Value.read .ordered "9223372036854775808" ≠ .ok (.integer n)) ∧
    ∃ x, Value.read .ordered "1E+2" = .ok (.real x) ∧ x.isNaN = false ∧ x.isInfinite = false := by
  have least : (Literal.ofInt (-9223372036854775808)).written =
      "-9223372036854775808".toList := by decide
  have spellsLeast : (Literal.ofInt (-9223372036854775808)).Spells
      "-9223372036854775808".toList := by
    rw [← least]
    exact Literal.spells_written (Literal.proper_ofInt _)
  have spellsBeyond : (Literal.ofInt 9223372036854775808).Spells "9223372036854775808".toList :=
    Literal.spells_written (Literal.proper_ofInt 9223372036854775808)
  have spellsHundred : hundred.Spells "1E+2".toList :=
    ⟨⟨.digitChars 1, nofun, by rintro _ _ ⟨⟩; exact .digitChars 2⟩,
      _, .signed (.inr rfl) false ['2'], rfl⟩
  refine ⟨?_, ?_, ?_⟩
  · exact ((read_literal_classified .ordered spellsLeast).1 _).mpr ⟨rfl, rfl, by decide, by decide⟩
  · intro n reads
    obtain ⟨_, _, _, number⟩ := ((read_literal_classified .ordered spellsBeyond).1 n).mp reads
    have beyond : (Literal.ofInt 9223372036854775808).wholeNumber = 9223372036854775808 := by decide
    have greatest := n.toInt_lt
    omega
  · have scaled : Literal.scale? (.ofNat 1) 2 = some ⟨0x4059000000000000⟩ := by decide +kernel
    have stands : hundred.value = .ok (.real ⟨0x4059000000000000⟩) := by
      have evaluated : hundred.value = hundred.realValue 1 2 := rfl
      rw [evaluated, Literal.realValue, scaled]
      rfl
    have reads : Value.read .ordered "1E+2" = .ok (.real ⟨0x4059000000000000⟩) :=
      (read_literal_eq_ok_iff spellsHundred).mpr (.inr ⟨_, stands, rfl⟩)
    rcases (read_literal_classified .ordered spellsHundred).2 _ reads with ⟨_, ⟨⟩⟩ | ⟨x, ⟨⟩, finite⟩
    exact ⟨_, reads, finite⟩

end ConfTree.Value
