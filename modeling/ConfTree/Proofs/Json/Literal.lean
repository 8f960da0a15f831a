/-
Module: ConfTree.Proofs.Json.Literal
Purpose: A spelled literal is read as its parts.
Main exports:
  Json.Delimited, Json.Literal.Proper, Json.Literal.written, Json.Literal.Spells,
  Json.Literal.spells_written, Json.Literal.scan_spelled,
  Json.Literal.ofInt, Json.Literal.written_ofInt
-/
import ConfTree.Json.Literal
import ConfTree.Json.Writer

namespace ConfTree.Json

/-!
A number has no mark at its end: the reader takes characters as long as they go on with
it.  So its text reads back only in front of something that does not go on with a
number, which is what a comma, a closing bracket, a blank and the end of the text have
in common.
-/

/-- Whether a character may stand behind a digit of the same number. -/
def goesOn (c : Char) : Bool := c.isDigit || c = '.' || c = 'e' || c = 'E'

/-- The text does not begin with something that goes on with a number. -/
def Delimited (rest : List Char) : Prop := ∀ c ∈ rest.head?, goesOn c = false

@[simp] theorem Delimited.nil : Delimited [] := by simp [Delimited]

@[simp] theorem delimited_cons {c : Char} {rest : List Char} :
    Delimited (c :: rest) ↔ goesOn c = false := by
  simp [Delimited]

/-- The text does not begin with a digit. -/
def StopsDigits (rest : List Char) : Prop := ∀ c ∈ rest.head?, c.isDigit = false

@[simp] theorem stopsDigits_cons {c : Char} {rest : List Char} :
    StopsDigits (c :: rest) ↔ c.isDigit = false := by
  simp [StopsDigits]

theorem Delimited.stopsDigits {rest : List Char} (delimited : Delimited rest) :
    StopsDigits rest := by
  intro c isFirst
  have stops := delimited c isFirst
  simp only [goesOn, Bool.or_eq_false_iff] at stops
  exact stops.1.1.1

/-- Whether a written number may begin with that character. -/
def beginsNumber (c : Char) : Bool := c = '-' || c.isDigit

namespace Literal

/-! ### Digits -/

/-- A run of digits is taken as a whole. -/
theorem takeDigits_append {digits : List Char} (areDigits : ∀ c ∈ digits, c.isDigit)
    {rest : List Char} (stops : StopsDigits rest) :
    takeDigits (digits ++ rest) = (digits, rest) := by
  have stays : rest.takeWhile Char.isDigit = [] ∧ rest.dropWhile Char.isDigit = rest := by
    cases rest with
    | nil => exact ⟨rfl, rfl⟩
    | cons c after => simp [stopsDigits_cons.mp stops]
  rw [takeDigits, List.takeWhile_append_of_pos areDigits,
    List.dropWhile_append_of_pos areDigits, stays.1, stays.2, List.append_nil]

theorem isDigit_of_mem_digitChars {n : Nat} {c : Char} (member : c ∈ digitChars n) :
    c.isDigit :=
  Nat.isDigit_of_mem_toDigits (by decide) (by decide) member

/-- A number other than zero does not begin with a zero. -/
theorem digitChars_eq_cons {n : Nat} (positive : 0 < n) :
    ∃ first others, digitChars n = first :: others ∧ first ≠ '0' := by
  induction n using Nat.strongRecOn with
  | ind n ih =>
      rw [digitChars]
      rcases Nat.lt_or_ge n 10 with small | large
      · refine ⟨n.digitChar, [], Nat.toDigits_of_lt_base small, ?_⟩
        simpa using Nat.pos_iff_ne_zero.mp positive
      · obtain ⟨first, others, digits, notZero⟩ := ih (n / 10) (by omega) (by omega)
        refine ⟨first, others ++ [(n % 10).digitChar], ?_, notZero⟩
        rw [Nat.toDigits_of_base_le (by decide) large]
        rw [digitChars] at digits
        rw [digits, List.cons_append]

/-- One digit or more, and nothing else. -/
structure Digits (digits : List Char) : Prop where
  notNil : digits ≠ []
  areDigits : ∀ c ∈ digits, c.isDigit

theorem Digits.digitChars (n : Nat) : Digits (digitChars n) :=
  ⟨Nat.toDigits_ne_nil, fun _ member => isDigit_of_mem_digitChars member⟩

/-- Digits do not begin with anything else. -/
theorem Digits.append_ne_cons {digits : List Char} (areDigits : Digits digits) {c : Char}
    (notDigit : c.isDigit = false) (rest others : List Char) : digits ++ rest ≠ c :: others := by
  cases digits with
  | nil => exact absurd rfl areDigits.notNil
  | cons first behind =>
      have isDigit := areDigits.areDigits first List.mem_cons_self
      intro same
      rw [(List.cons.inj same).1, notDigit] at isDigit
      cases isDigit

/-- The digits in front of a point: no zero stands in front of another digit. -/
structure Whole (digits : List Char) : Prop extends Digits digits where
  noLeadingZero : ∀ others, digits = '0' :: others → others = []

theorem Whole.zero : Whole ['0'] := ⟨⟨by simp, by simp⟩, by simp⟩

theorem Whole.of_first {first : Char} {others : List Char} (notZero : first ≠ '0')
    (areDigits : ∀ c ∈ first :: others, c.isDigit) : Whole (first :: others) :=
  ⟨⟨by simp, areDigits⟩, fun _ zero => absurd (List.cons.inj zero).1 notZero⟩

theorem Whole.digitChars (n : Nat) : Whole (digitChars n) := by
  rcases Nat.eq_zero_or_pos n with rfl | positive
  · have alone : ConfTree.digitChars 0 = ['0'] := Nat.toDigits_zero 10
    rw [alone]
    exact .zero
  · obtain ⟨first, others, digits, notZero⟩ := digitChars_eq_cons positive
    have areDigits := (Digits.digitChars n).areDigits
    rw [digits] at areDigits ⊢
    exact .of_first notZero areDigits

/-! ### The parts of a literal -/

/-- Digits in front of a point are taken as a whole. -/
theorem readWhole_append_of_whole {digits : List Char} (whole : Whole digits)
    {rest : List Char} (stops : StopsDigits rest) :
    readWhole (digits ++ rest) = .ok (digits, rest) := by
  cases digits with
  | nil => exact absurd rfl whole.notNil
  | cons first others =>
      by_cases zero : first = '0'
      · rw [zero] at whole ⊢
        cases whole.noLeadingZero others rfl
        cases rest with
        | nil => rfl
        | cons c after => simp [readWhole, stopsDigits_cons.mp stops]
      · obtain ⟨firstDigit, otherDigits⟩ := List.forall_mem_cons.mp whole.areDigits
        have taken := takeDigits_append otherDigits stops
        rw [List.cons_append, readWhole, if_pos firstDigit, taken]
        exact zero

/-- Without a point nothing is taken as a fraction. -/
theorem readFraction_of_no_point {rest : List Char} (noPoint : ∀ c ∈ rest.head?, c ≠ '.') :
    readFraction rest = .ok (none, rest) := by
  cases rest with
  | nil => rfl
  | cons c after =>
      rw [readFraction]
      intro text same
      exact noPoint c rfl (List.cons.inj same).1

theorem readFraction_of_delimited {rest : List Char} (delimited : Delimited rest) :
    readFraction rest = .ok (none, rest) := by
  apply readFraction_of_no_point
  intro c isFirst point
  have stops := delimited c isFirst
  simp [goesOn, point] at stops

theorem readFraction_point {digits : List Char} (areDigits : Digits digits) {rest : List Char}
    (stops : StopsDigits rest) :
    readFraction ('.' :: (digits ++ rest)) = .ok (some digits, rest) := by
  have taken := takeDigits_append areDigits.areDigits stops
  cases digits with
  | nil => exact absurd rfl areDigits.notNil
  | cons first others => rw [readFraction, taken]

theorem readExponent_of_delimited {rest : List Char} (delimited : Delimited rest) :
    readExponent rest = .ok (none, rest) := by
  cases rest with
  | nil => rfl
  | cons c after =>
      have notLetter : ¬ (c = 'e' ∨ c = 'E') := by
        rintro (rfl | rfl) <;> simp [goesOn] at delimited
      simp only [readExponent, if_neg notLetter]

theorem readExponentDigits_append_of_digits (below : Bool) {digits : List Char}
    (areDigits : Digits digits) {rest : List Char} (stops : StopsDigits rest) :
    readExponentDigits below (digits ++ rest) = .ok (some (below, digits), rest) := by
  have taken := takeDigits_append areDigits.areDigits stops
  cases digits with
  | nil => exact absurd rfl areDigits.notNil
  | cons first others => rw [readExponentDigits, taken]

/-- Read the parts of a literal behind its sign. -/
def scanBehindSign (negative : Bool) (text : List Char) : Except Fault (Literal × List Char) := do
  let (whole, rest) ← readWhole text
  let (fraction, rest) ← readFraction rest
  let (exponent, rest) ← readExponent rest
  return ({ negative, whole, fraction, exponent }, rest)

theorem scan_minus (text : List Char) : scan ('-' :: text) = scanBehindSign true text := rfl

theorem scan_unsigned {c : Char} (notMinus : c ≠ '-') (text : List Char) :
    scan (c :: text) = scanBehindSign false (c :: text) := by
  rw [scan]
  · rfl
  · intro behind same
    exact notMinus (List.cons.inj same).1

/-! ### Written literals -/

/-- A literal with digits wherever it must have some, and no superfluous zero. -/
structure Proper (literal : Literal) : Prop where
  whole : Whole literal.whole
  fraction : ∀ digits, literal.fraction = some digits → Digits digits
  exponent : ∀ below digits, literal.exponent = some (below, digits) → Digits digits

/-- The text of a fraction. -/
def fractionText : Option (List Char) → List Char
  | none => []
  | some digits => '.' :: digits

/-- The text of an exponent, which is written with its sign. -/
def exponentText : Option (Bool × List Char) → List Char
  | none => []
  | some (below, digits) => 'e' :: (if below then '-' else '+') :: digits

/-- The text of a literal without its sign. -/
def size (literal : Literal) : List Char :=
  literal.whole ++ (fractionText literal.fraction ++ exponentText literal.exponent)

/-- The text by which a literal is written. -/
def written (literal : Literal) : List Char :=
  if literal.negative then '-' :: literal.size else literal.size

/-! ### Spelled literals -/

/-- The characters spell the exponent: a letter in either case, a sign, which need not be there if
it is a plus, and digits. -/
inductive SpellsExponent : List Char → Option (Bool × List Char) → Prop
  | absent : SpellsExponent [] none
  | unsigned {letter : Char} (isLetter : letter = 'e' ∨ letter = 'E') (digits : List Char) :
      SpellsExponent (letter :: digits) (some (false, digits))
  | signed {letter : Char} (isLetter : letter = 'e' ∨ letter = 'E') (below : Bool)
      (digits : List Char) :
      SpellsExponent (letter :: (if below then '-' else '+') :: digits) (some (below, digits))

/-- The text spells the literal, as the grammar of numbers has it. -/
structure Spells (text : List Char) (literal : Literal) : Prop where
  proper : literal.Proper
  spelled : ∃ power, SpellsExponent power literal.exponent ∧
    text = (if literal.negative then ['-'] else []) ++
      (literal.whole ++ (fractionText literal.fraction ++ power))

/-- The text by which a literal is written is one of its spellings. -/
theorem spells_written {literal : Literal} (proper : literal.Proper) :
    Spells literal.written literal := by
  refine ⟨proper, exponentText literal.exponent, ?_, ?_⟩
  · cases literal.exponent with
    | none => exact .absent
    | some parts => exact .signed (.inl rfl) parts.1 parts.2
  · rw [written, size]
    split <;> rfl

theorem SpellsExponent.head?_eq_some {power : List Char} {exponent : Option (Bool × List Char)}
    (spells : SpellsExponent power exponent) {rest : List Char} (delimited : Delimited rest)
    {c : Char} (isFirst : c ∈ (power ++ rest).head?) : c.isDigit = false ∧ c ≠ '.' := by
  cases spells with
  | absent =>
      have stops := delimited c isFirst
      simp only [goesOn, Bool.or_eq_false_iff, decide_eq_false_iff_not] at stops
      exact ⟨stops.1.1.1, stops.1.1.2⟩
  | unsigned isLetter | signed isLetter =>
      cases isFirst
      rcases isLetter with rfl | rfl <;> decide

theorem readExponent_spelled {power : List Char} {exponent : Option (Bool × List Char)}
    (spells : SpellsExponent power exponent)
    (areDigits : ∀ below digits, exponent = some (below, digits) → Digits digits)
    {rest : List Char} (delimited : Delimited rest) :
    readExponent (power ++ rest) = .ok (exponent, rest) := by
  cases spells with
  | absent => exact readExponent_of_delimited delimited
  | unsigned isLetter digits =>
      have isDigits := areDigits false digits rfl
      have read := readExponentDigits_append_of_digits false isDigits delimited.stopsDigits
      rw [List.cons_append, readExponent, if_pos isLetter, read]
      -- The digits do not begin with a sign.
      all_goals exact fun others => isDigits.append_ne_cons (by decide) rest others
  | signed isLetter below digits =>
      have read := readExponentDigits_append_of_digits below (areDigits below digits rfl)
        delimited.stopsDigits
      cases below <;> simpa [readExponent, isLetter] using read

theorem readFraction_spelled {fraction : Option (List Char)}
    (areDigits : ∀ digits, fraction = some digits → Digits digits) {power : List Char}
    {exponent : Option (Bool × List Char)} (spells : SpellsExponent power exponent)
    {rest : List Char} (delimited : Delimited rest) :
    readFraction (fractionText fraction ++ (power ++ rest)) = .ok (fraction, power ++ rest) := by
  cases fraction with
  | none => exact readFraction_of_no_point fun c isFirst => (spells.head?_eq_some delimited isFirst).2
  | some digits =>
      apply readFraction_point (areDigits digits rfl)
      exact fun c isFirst => (spells.head?_eq_some delimited isFirst).1

/-- A spelled literal is read as its parts, up to what follows it. -/
theorem scan_spelled {text : List Char} {literal : Literal} (spells : Spells text literal)
    {rest : List Char} (delimited : Delimited rest) :
    scan (text ++ rest) = .ok (literal, rest) := by
  obtain ⟨proper, power, spellsPower, rfl⟩ := spells
  obtain ⟨negative, digits, fraction, exponent⟩ := literal
  have behindSign : scanBehindSign negative
      (digits ++ (fractionText fraction ++ (power ++ rest))) =
        .ok (⟨negative, digits, fraction, exponent⟩, rest) := by
    have stops : StopsDigits (fractionText fraction ++ (power ++ rest)) := by
      cases fraction with
      | some digits => exact stopsDigits_cons.mpr rfl
      | none => exact fun c isFirst => (spellsPower.head?_eq_some delimited isFirst).1
    simp only [scanBehindSign, bind, Except.bind, pure, Except.pure,
      readWhole_append_of_whole proper.whole stops,
      readFraction_spelled proper.fraction spellsPower delimited,
      readExponent_spelled spellsPower proper.exponent delimited]
  cases negative with
  | true => simpa [scan_minus] using behindSign
  | false =>
      cases digits with
      | nil => exact absurd rfl proper.whole.notNil
      | cons first others =>
          have isDigit : first.isDigit := proper.whole.areDigits first List.mem_cons_self
          have notMinus : first ≠ '-' := by
            rintro rfl
            cases isDigit
          simpa [scan_unsigned notMinus] using behindSign

/-- A spelled literal begins as a number does. -/
theorem Spells.begins {text : List Char} {literal : Literal} (spells : Spells text literal) :
    ∃ first others, text = first :: others ∧ beginsNumber first := by
  obtain ⟨proper, power, _, rfl⟩ := spells
  obtain ⟨negative, digits, fraction, exponent⟩ := literal
  cases negative with
  | true => exact ⟨'-', _, rfl, by decide⟩
  | false =>
      cases digits with
      | nil => exact absurd rfl proper.whole.notNil
      | cons first others =>
          have isDigit : first.isDigit := proper.whole.areDigits first List.mem_cons_self
          exact ⟨first, _, rfl, by simp [beginsNumber, isDigit]⟩

/-! ### Whole numbers -/

/-- The literal by which a whole number is written. -/
def ofInt (n : Int) : Literal :=
  { negative := n < 0, whole := digitChars n.natAbs, fraction := none, exponent := none }

theorem proper_ofInt (n : Int) : (ofInt n).Proper where
  whole := .digitChars n.natAbs
  fraction := nofun
  exponent := nofun

/-- The text of a whole number is that of its literal. -/
theorem written_ofInt (n : Int) : (ofInt n).written = integerText n := by
  simp [written, size, ofInt, integerText, fractionText, exponentText]

end Literal

theorem digitChars_inj {n m : Nat} (same : digitChars n = digitChars m) : n = m := by
  have value := congrArg (fun digits => Nat.ofDigitChars 10 digits 0) same
  simpa only [digitChars, Nat.ofDigitChars_ten_toDigits] using value

/-- Whole numbers are told apart by their texts. -/
theorem integerText_inj {n m : Int} (same : integerText n = integerText m) : n = m := by
  have notMinus (k : Nat) (others : List Char) : digitChars k ≠ '-' :: others := by
    intro begins
    have isDigit := Literal.isDigit_of_mem_digitChars (begins ▸ List.mem_cons_self)
    cases isDigit
  simp only [integerText] at same
  split at same <;> split at same
  · have magnitudes := digitChars_inj (List.cons.inj same).2
    omega
  · exact absurd same.symm (notMinus _ _)
  · exact absurd same (notMinus _ _)
  · have magnitudes := digitChars_inj same
    omega

end ConfTree.Json
