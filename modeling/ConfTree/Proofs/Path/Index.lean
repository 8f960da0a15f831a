/-
Module: ConfTree.Proofs.Path.Index
Purpose: Which segments are indices, and which item of a sequence each of them addresses.
Main exports:
  Path.SpellsIndex, Path.readIndex?_eq_some_iff, Path.spellsIndex_toString,
  Path.toInt_place, Path.itemAt_front, Path.itemAt_back, Path.itemAt_exactly
-/
import ConfTree.Path
import ConfTree.Proofs.Json.Literal

namespace ConfTree.Path

/-!
An index is spelled in decimal, behind a sign if there is one, and is read as long as it fits 64
bits; zeros in front of it do not matter.  An item has two indices, one counted from the front and
one from the back; they differ by the length of the sequence, so which one is read makes no
difference to the place that it names.

The place is computed within 64 bits.  The length of a sequence is added to an index below zero
only, and it is no greater than the greatest index; so the sum is exact, and where it stays below
zero it is known to be no position.
-/

open Json.Literal (Digits)

/-! ### Spelling -/

/-- The characters spell the index: one decimal digit or more, behind a sign or not. -/
inductive SpellsIndex : List Char → Int → Prop
  | unsigned {digits : List Char} (areDigits : Digits digits) :
      SpellsIndex digits (Nat.ofDigitChars 10 digits 0 : Nat)
  | plus {digits : List Char} (areDigits : Digits digits) :
      SpellsIndex ('+' :: digits) (Nat.ofDigitChars 10 digits 0 : Nat)
  | minus {digits : List Char} (areDigits : Digits digits) :
      SpellsIndex ('-' :: digits) (-(Nat.ofDigitChars 10 digits 0 : Nat))

theorem toList_toString_natCast (n : Nat) : (toString (n : Int)).toList = Nat.toDigits 10 n :=
  Nat.toList_repr

theorem toList_toString_negSucc (n : Nat) :
    (toString (Int.negSucc n)).toList = '-' :: Nat.toDigits 10 (n + 1) := by
  have text : toString (Int.negSucc n) = "-" ++ (n + 1).repr := rfl
  rw [text, String.toList_append, Nat.toList_repr]
  rfl

/-- The decimal form of an index spells it. -/
theorem spellsIndex_toString (index : Int) : SpellsIndex (toString index).toList index := by
  have size (n : Nat) : Nat.ofDigitChars 10 (Nat.toDigits 10 n) 0 = n :=
    Nat.ofDigitChars_ten_toDigits
  cases index with
  | ofNat n =>
      have spells := SpellsIndex.unsigned (Digits.digitChars n)
      rw [digitChars, size] at spells
      exact (toList_toString_natCast n).symm ▸ spells
  | negSucc n =>
      have spells := SpellsIndex.minus (Digits.digitChars (n + 1))
      rw [digitChars, size] at spells
      exact (toList_toString_negSucc n).symm ▸ spells

theorem not_digits_of_sign {sign : Char} (notDigit : sign.isDigit = false) (others : List Char) :
    ¬ Digits (sign :: others) :=
  fun digits => digits.append_ne_cons notDigit [] others (List.append_nil _)

theorem spellsIndex_minus_iff {digits : List Char} {index : Int} :
    SpellsIndex ('-' :: digits) index ↔
      Digits digits ∧ -(Nat.ofDigitChars 10 digits 0 : Nat) = index := by
  constructor
  · intro spells
    cases spells with
    | unsigned areDigits => exact absurd areDigits (not_digits_of_sign (by decide) _)
    | minus areDigits => exact ⟨areDigits, rfl⟩
  · rintro ⟨areDigits, rfl⟩
    exact .minus areDigits

theorem spellsIndex_plus_iff {digits : List Char} {index : Int} :
    SpellsIndex ('+' :: digits) index ↔
      Digits digits ∧ (Nat.ofDigitChars 10 digits 0 : Nat) = index := by
  constructor
  · intro spells
    cases spells with
    | unsigned areDigits => exact absurd areDigits (not_digits_of_sign (by decide) _)
    | plus areDigits => exact ⟨areDigits, rfl⟩
  · rintro ⟨areDigits, rfl⟩
    exact .plus areDigits

theorem spellsIndex_unsigned_iff {digits : List Char} (notMinus : digits.head? ≠ some '-')
    (notPlus : digits.head? ≠ some '+') {index : Int} :
    SpellsIndex digits index ↔ Digits digits ∧ (Nat.ofDigitChars 10 digits 0 : Nat) = index := by
  constructor
  · intro spells
    cases spells with
    | unsigned areDigits => exact ⟨areDigits, rfl⟩
    | plus => exact absurd rfl notPlus
    | minus => exact absurd rfl notMinus
  · rintro ⟨areDigits, rfl⟩
    exact .unsigned areDigits

/-! ### Reading -/

theorem toInt_ofInt {index : Int} (least : Int64.minValue.toInt ≤ index)
    (greatest : index ≤ Int64.maxValue.toInt) : (Int64.ofInt index).toInt = index :=
  Int64.toInt_ofInt_of_le least (Int.lt_of_le_of_lt greatest (by decide))

/-- Some digits are read as a number within 64 bits. -/
theorem readDigits_eq_some_iff {digits : List Char} {value : Int} {index : Int64} :
    (if digits.isEmpty || !digits.all Char.isDigit then none
      else if Int64.minValue.toInt ≤ value ∧ value ≤ Int64.maxValue.toInt then
        some (Int64.ofInt value)
      else none) = some index ↔ Digits digits ∧ value = index.toInt := by
  have areDigits : Digits digits ↔ ¬ (digits.isEmpty || !digits.all Char.isDigit) = true := by
    simp only [Bool.or_eq_true, Bool.not_eq_true', not_or, Bool.not_eq_false, List.all_eq_true,
      List.isEmpty_iff]
    exact ⟨fun digits => ⟨digits.notNil, digits.areDigits⟩, fun both => ⟨both.1, both.2⟩⟩
  have range : (Int64.minValue.toInt ≤ value ∧ value ≤ Int64.maxValue.toInt ∧
      Int64.ofInt value = index) ↔ value = index.toInt := by
    constructor
    · rintro ⟨least, greatest, rfl⟩
      exact (toInt_ofInt least greatest).symm
    · rintro rfl
      exact ⟨index.minValue_le_toInt, index.toInt_le, index.ofInt_toInt⟩
  rw [areDigits, ← range]
  split <;> simp_all [and_assoc]

/-- A segment is read as the index within 64 bits that it spells, if there is one. -/
theorem readIndex?_eq_some_iff {segment : String} {index : Int64} :
    readIndex? segment = some index ↔ SpellsIndex segment.toList index.toInt := by
  rw [readIndex?]
  generalize segment.toList = chars
  split
  rename_i signed negative digits sign
  split at sign
  case h_1 =>
    cases sign
    rw [spellsIndex_minus_iff]
    exact readDigits_eq_some_iff
  case h_2 =>
    cases sign
    rw [spellsIndex_plus_iff]
    exact readDigits_eq_some_iff
  case h_3 notMinus notPlus =>
    cases sign
    rw [spellsIndex_unsigned_iff]
    · exact readDigits_eq_some_iff
    · intro minus
      obtain ⟨others, rfl⟩ := List.head?_eq_some_iff.mp minus
      exact notMinus others rfl
    · intro plus
      obtain ⟨others, rfl⟩ := List.head?_eq_some_iff.mp plus
      exact notPlus others rfl

/-! ### Places -/

theorem lt_zero_iff {index : Int64} : index < 0 ↔ index.toInt < 0 := Int64.lt_iff_toInt_lt

section

variable {items : List Value} (countable : (items.length : Int) ≤ Int64.maxValue.toInt)

include countable

/-- The length of a sequence and an index below zero have their sum within 64 bits. -/
theorem toInt_add_length {index : Int64} (negative : index.toInt < 0) :
    (index + Int64.ofNat items.length).toInt = index.toInt + items.length := by
  have least := index.le_toInt
  have limit : Int64.maxValue.toInt = 2 ^ 63 - 1 := by decide
  have length : (Int64.ofNat items.length).toInt = items.length :=
    Int64.toInt_ofNat_of_lt (by omega)
  rw [Int64.toInt_add, length]
  apply Int.bmod_eq_of_le <;> omega

/-- The place of an index is the index itself, or its sum with the length below zero. -/
theorem toInt_place (index : Int64) :
    (place index items.length).toInt =
      if index.toInt < 0 then index.toInt + items.length else index.toInt := by
  simp only [place, lt_zero_iff]
  split
  case isTrue negative => exact toInt_add_length countable negative
  case isFalse => rfl

end

/-- A place is a position from zero on. -/
theorem position?_eq (place : Int64) :
    position? place = if place.toInt < 0 then none else some place.toInt.toNat := by
  simp only [position?, lt_zero_iff]
  rfl

/-! ### Items -/

section

variable {items : List Value} (countable : (items.length : Int) ≤ Int64.maxValue.toInt)
  {segment : String} {index : Int64} (spells : SpellsIndex segment.toList index.toInt)

include countable spells

/-- An item is found under every segment that spells an index for its place. -/
theorem itemAt_of_spells {position : Nat} {item : Value} (there : items[position]? = some item)
    (named : (if index.toInt < 0 then index.toInt + items.length else index.toInt) = position) :
    itemAt items segment = .ok item := by
  have placed : position? (place index items.length) = some position := by
    rw [position?_eq, toInt_place countable, named]
    simp
  simp only [itemAt, readIndex?_eq_some_iff.mpr spells, placed, Option.bind_some, there]

/-- An index that names no place is out of range. -/
theorem itemAt_of_beyond
    (beyond : index.toInt < -items.length ∨ (items.length : Int) ≤ index.toInt) :
    itemAt items segment = .error (.indexOutOfRange index items.length) := by
  have nothing : ((position? (place index items.length)).bind fun position => items[position]?) =
      none := by
    rw [position?_eq, toInt_place countable]
    by_cases negative : index.toInt < 0
    · rw [if_pos negative, if_pos (by omega)]
      rfl
    · rw [if_neg negative, if_neg negative]
      apply List.getElem?_eq_none
      omega
  simp only [itemAt, readIndex?_eq_some_iff.mpr spells, nothing]

end

section

variable {items : List Value} (countable : (items.length : Int) ≤ Int64.maxValue.toInt)
  {position : Nat} {item : Value} (there : items[position]? = some item)

include countable there

/-- An item is found under the decimal form of every index that names its place. -/
theorem itemAt_toString {index : Int} (least : Int64.minValue.toInt ≤ index)
    (greatest : index ≤ Int64.maxValue.toInt)
    (named : (if index < 0 then index + items.length else index) = position) :
    itemAt items (toString index) = .ok item := by
  have inRange := toInt_ofInt least greatest
  have spells : SpellsIndex (toString index).toList (Int64.ofInt index).toInt :=
    inRange.symm ▸ spellsIndex_toString index
  apply itemAt_of_spells countable spells there
  rw [inRange]
  exact named

/-- An item is found under its index counted from the front. -/
theorem itemAt_front : itemAt items (toString (position : Int)) = .ok item := by
  have below : position < items.length := (List.getElem?_eq_some_iff.mp there).1
  have least : Int64.minValue.toInt ≤ 0 := by decide
  apply itemAt_toString countable there
  · omega
  · omega
  · exact if_neg (by omega)

/-- An item is found under its index counted from the back, which is below zero. -/
theorem itemAt_back :
    itemAt items (toString ((position : Int) - items.length)) = .ok item := by
  have below : position < items.length := (List.getElem?_eq_some_iff.mp there).1
  have limits : Int64.minValue.toInt = -Int64.maxValue.toInt - 1 := by decide
  have positive : 0 < Int64.maxValue.toInt := by decide
  apply itemAt_toString countable there
  · omega
  · omega
  · rw [if_pos (by omega)]
    omega

end

/-! ### Segments -/

/-- A segment is no index exactly if every index that it spells is beyond 64 bits. -/
theorem readIndex?_eq_none_iff {segment : String} :
    readIndex? segment = none ↔ ∀ index, SpellsIndex segment.toList index →
      index < Int64.minValue.toInt ∨ Int64.maxValue.toInt < index := by
  constructor
  · intro unread index spells
    rcases Int.lt_or_le index Int64.minValue.toInt with below | least
    · exact .inl below
    rcases Int.lt_or_le Int64.maxValue.toInt index with above | greatest
    · exact .inr above
    rw [← toInt_ofInt least greatest] at spells
    rw [readIndex?_eq_some_iff.mpr spells] at unread
    cases unread
  · intro beyond
    cases reads : readIndex? segment with
    | none => rfl
    | some index =>
        have least := index.minValue_le_toInt
        have greatest := index.toInt_le
        have outside := beyond _ (readIndex?_eq_some_iff.mp reads)
        omega

theorem itemAt_eq_invalidIndex_iff {items : List Value} {segment : String} :
    itemAt items segment = .error (.invalidIndex segment) ↔ readIndex? segment = none := by
  cases reads : readIndex? segment with
  | none => simp only [itemAt, reads]
  | some index =>
      simp only [itemAt, reads]
      split <;> simp

/-- In a sequence that 64 bits can count, a segment is no index exactly if it does not spell one
within 64 bits.  Any other segment leads to the item at its index, counted from the front or, below
zero, from the back, and if there is none, to a failure that tells the index as it was spelled.  On
the way the length is added to an index below zero without a change of bits, and a sum that is
still below zero is no position. -/
theorem itemAt_exactly {items : List Value}
    (countable : (items.length : Int) ≤ Int64.maxValue.toInt) (segment : String) :
    (itemAt items segment = .error (.invalidIndex segment) ↔
        ∀ index, SpellsIndex segment.toList index →
          index < Int64.minValue.toInt ∨ Int64.maxValue.toInt < index) ∧
      ∀ index : Int64, SpellsIndex segment.toList index.toInt →
        (0 ≤ index.toInt ∧ index.toInt < items.length →
          ∃ item, items[index.toInt.toNat]? = some item ∧ itemAt items segment = .ok item) ∧
        (-items.length ≤ index.toInt ∧ index.toInt < 0 →
          ∃ item, items[(items.length + index.toInt).toNat]? = some item ∧
            itemAt items segment = .ok item) ∧
        (index.toInt < -items.length ∨ items.length ≤ index.toInt →
          itemAt items segment = .error (.indexOutOfRange index items.length)) ∧
        (index.toInt < 0 →
          (index + Int64.ofNat items.length).toInt = index.toInt + items.length ∧
          (index.toInt + items.length < 0 → position? (place index items.length) = none)) := by
  refine ⟨itemAt_eq_invalidIndex_iff.trans readIndex?_eq_none_iff, ?_⟩
  intro index spells
  refine ⟨?front, ?back, itemAt_of_beyond countable spells, ?sum⟩
  case front =>
    rintro ⟨fromZero, below⟩
    have there : items[index.toInt.toNat]? = some _ := List.getElem?_eq_getElem (by omega)
    exact ⟨_, there, itemAt_of_spells countable spells there (by split <;> omega)⟩
  case back =>
    rintro ⟨notBeyond, negative⟩
    have there : items[(items.length + index.toInt).toNat]? = some _ :=
      List.getElem?_eq_getElem (by omega)
    exact ⟨_, there, itemAt_of_spells countable spells there (by split <;> omega)⟩
  case sum =>
    intro negative
    refine ⟨toInt_add_length countable negative, ?_⟩
    intro sumNegative
    rw [position?_eq, toInt_place countable, if_pos negative, if_pos sumNegative]

/-- In a sequence of two items, the least index that names an item and the greatest one below it,
which names nothing. -/
theorem itemAt_exactly_pair :
    itemAt [.integer 10, .integer 20] "-02" = .ok (.integer 10) ∧
      itemAt [.integer 10, .integer 20] "-3" = .error (.indexOutOfRange (-3) 2) := by
  have countable : (([.integer 10, .integer 20] : List Value).length : Int) ≤
      Int64.maxValue.toInt := by decide
  have last : SpellsIndex "-02".toList (-2 : Int64).toInt :=
    @SpellsIndex.minus ['0', '2'] ⟨by simp, by simp⟩
  have beyond : SpellsIndex "-3".toList (-3 : Int64).toInt :=
    @SpellsIndex.minus ['3'] ⟨by simp, by simp⟩
  obtain ⟨_, answers⟩ := itemAt_exactly countable "-02"
  obtain ⟨_, answersBeyond⟩ := itemAt_exactly countable "-3"
  obtain ⟨item, there, found⟩ := (answers _ last).2.1 (by decide)
  cases there
  exact ⟨found, (answersBeyond _ beyond).2.2.1 (by decide)⟩

end ConfTree.Path
