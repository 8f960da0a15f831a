/-
Module: ConfTree.Proofs.Text.ByteOrder
Purpose: Texts are ordered by their characters as they are by their bytes.
Main exports:
  Text.bytes, Text.encode_lt_encode, Text.bytes_lt_bytes_iff
-/
import Mathlib.Data.String.Basic
import Mathlib.Tactic.IntervalCases

namespace ConfTree.Text

/-!
Texts are compared character by character, by code point.  Written in UTF-8 they can be
compared byte by byte as well, and that gives the same order.  The encoding was made for this:
a character that takes more bytes begins with a greater byte, and characters that take equally
many differ first in the highest digit to base 64 in which their code points differ.
-/

/-- The bytes of a text in UTF-8. -/
def bytes (text : String) : List UInt8 := text.toUTF8.data.toList

theorem bytes_eq (text : String) : bytes text = text.toList.flatMap String.utf8EncodeChar := by
  have encoded : text.toUTF8 = (text.toList.flatMap String.utf8EncodeChar).toByteArray := by
    rw [String.toUTF8_eq_toByteArray]
    conv_lhs => rw [← String.ofList_toList (s := text)]
    exact String.toByteArray_ofList
  rw [bytes, encoded, List.toList_data_toByteArray]

/-! ### The bytes of a character -/

/-- The bytes behind the first one: so many of the lowest digits of a code point to base 64. -/
def trail : Nat → Nat → List UInt8
  | 0, _ => []
  | count + 1, code => UInt8.ofNat (code / 64 ^ count % 64 + 128) :: trail count code

/-- The least code point that takes so many bytes behind the first one. -/
def leastCode : Nat → Nat
  | 0 => 0
  | 1 => 0x80
  | 2 => 0x800
  | 3 => 0x10000
  | _ => 0x110000

/-- What marks the first byte of a character that takes so many bytes behind it. -/
def mark : Nat → Nat
  | 0 => 0
  | 1 => 0xc0
  | 2 => 0xe0
  | 3 => 0xf0
  | _ => 0xf8

theorem code_lt_leastCode (c : Char) : c.val.toNat < leastCode 4 := by
  have valid : c.val.toNat.isValidChar := c.valid
  rw [Nat.isValidChar] at valid
  simp only [leastCode]
  omega

theorem exists_encoding (c : Char) :
    ∃ count ≤ 3, leastCode count ≤ c.val.toNat ∧ c.val.toNat < leastCode (count + 1) ∧
      String.utf8EncodeChar c =
        UInt8.ofNat (mark count + c.val.toNat / 64 ^ count) :: trail count c.val.toNat := by
  have greatest := code_lt_leastCode c
  generalize code : c.val.toNat = v at greatest ⊢
  rw [String.utf8EncodeChar, code]
  simp only [leastCode] at greatest
  by_cases one : v ≤ 0x7f
  · refine ⟨0, by decide, by simp only [leastCode]; omega, by simp only [leastCode]; omega, ?_⟩
    simp only [one, if_true, mark, trail, Nat.reducePow, Nat.div_one, Nat.zero_add]
  by_cases two : v ≤ 0x7ff
  · have first : v / 64 % 32 + 192 = 192 + v / 64 := by omega
    refine ⟨1, by decide, by simp only [leastCode]; omega, by simp only [leastCode]; omega, ?_⟩
    simp only [one, two, if_true, if_false, mark, trail, Nat.reducePow, Nat.div_one, first]
  by_cases three : v ≤ 0xffff
  · have first : v / 4096 % 16 + 224 = 224 + v / 4096 := by omega
    refine ⟨2, by decide, by simp only [leastCode]; omega, by simp only [leastCode]; omega, ?_⟩
    simp only [one, two, three, if_true, if_false, mark, trail, Nat.reducePow, Nat.div_one, first]
  · have first : v / 262144 % 8 + 240 = 240 + v / 262144 := by omega
    refine ⟨3, by decide, by simp only [leastCode]; omega, by simp only [leastCode]; omega, ?_⟩
    simp only [one, two, three, if_false, mark, trail, Nat.reducePow, Nat.div_one, first]

/-- The first byte tells how many bytes are behind it. -/
theorem first_lt_mark {count code : Nat} (few : count ≤ 3) (below : code < leastCode (count + 1)) :
    mark count + code / 64 ^ count < mark (count + 1) := by
  interval_cases count <;> simp only [mark, leastCode] at * <;> omega

theorem mark_le_mark {fewer more : Nat} (less : fewer < more) (few : more ≤ 3) :
    mark (fewer + 1) ≤ mark more := by
  interval_cases more <;> interval_cases fewer <;> decide

theorem mark_le_byte {count : Nat} (few : count ≤ 3) : mark (count + 1) ≤ 256 := by
  interval_cases count <;> decide

theorem leastCode_le_leastCode {fewer more : Nat} (less : fewer < more) (few : more ≤ 3) :
    leastCode (fewer + 1) ≤ leastCode more := by
  interval_cases more <;> interval_cases fewer <;> decide

/-- Code points with the same digits above differ in their lower digits. -/
theorem trail_lt_trail {count code other : Nat} (less : code < other)
    (same : code / 64 ^ count = other / 64 ^ count) (rest rest' : List UInt8) :
    trail count code ++ rest < trail count other ++ rest' := by
  induction count with
  | zero =>
      simp only [Nat.pow_zero, Nat.div_one] at same
      omega
  | succ count ih =>
      have digits (n : Nat) : n / 64 ^ (count + 1) = n / 64 ^ count / 64 := by
        rw [Nat.pow_succ, Nat.div_div_eq_div_mul]
      rw [digits, digits] at same
      rw [trail, trail, List.cons_append, List.cons_append, List.cons_lt_cons_iff]
      rcases Nat.lt_or_eq_of_le (Nat.div_le_div_right (c := 64 ^ count) less.le) with here | here
      · left
        rw [UInt8.lt_iff_toNat_lt, UInt8.toNat_ofNat', UInt8.toNat_ofNat']
        omega
      · right
        exact ⟨by rw [here], ih here⟩

/-- A character of a lower code point is less in its bytes, whatever comes behind. -/
theorem encode_lt_encode {c d : Char} (less : c < d) (rest rest' : List UInt8) :
    String.utf8EncodeChar c ++ rest < String.utf8EncodeChar d ++ rest' := by
  have lessCode : c.val.toNat < d.val.toNat := less
  obtain ⟨fewer, few, least, below, encoding⟩ := exists_encoding c
  obtain ⟨more, few', least', below', encoding'⟩ := exists_encoding d
  rw [encoding, encoding', List.cons_append, List.cons_append, List.cons_lt_cons_iff,
    UInt8.lt_iff_toNat_lt, UInt8.toNat_ofNat', UInt8.toNat_ofNat']
  have first := first_lt_mark few below
  have first' := first_lt_mark few' below'
  have byte := mark_le_byte few
  have byte' := mark_le_byte few'
  rw [Nat.mod_eq_of_lt (by omega), Nat.mod_eq_of_lt (by omega)]
  rcases Nat.lt_trichotomy fewer more with shorter | rfl | longer
  · left
    calc mark fewer + c.val.toNat / 64 ^ fewer
        < mark (fewer + 1) := first
      _ ≤ mark more := mark_le_mark shorter few'
      _ ≤ mark more + d.val.toNat / 64 ^ more := Nat.le_add_right _ _
  · rcases Nat.lt_or_eq_of_le (Nat.div_le_div_right (c := 64 ^ fewer) lessCode.le) with high | high
    · left
      omega
    · right
      exact ⟨by rw [high], trail_lt_trail lessCode high rest rest'⟩
  · have codes := leastCode_le_leastCode longer few
    omega

/-! ### Texts -/

theorem flatMap_lt_flatMap {first second : List Char} (less : first < second) :
    first.flatMap String.utf8EncodeChar < second.flatMap String.utf8EncodeChar := by
  induction less with
  | @nil c rest =>
      obtain ⟨_, _, _, _, encoding⟩ := exists_encoding c
      rw [List.flatMap_cons, encoding]
      exact List.nil_lt_cons _ _
  | rel less =>
      rw [List.flatMap_cons, List.flatMap_cons]
      exact encode_lt_encode less _ _
  | cons _ ih =>
      rw [List.flatMap_cons, List.flatMap_cons]
      exact List.append_left_lt ih

theorem bytes_lt_bytes {first second : String} (less : first < second) :
    bytes first < bytes second := by
  rw [bytes_eq, bytes_eq]
  exact flatMap_lt_flatMap (String.lt_iff_toList_lt.mp less)

/-- The order of texts is that of their bytes in UTF-8. -/
theorem bytes_lt_bytes_iff {first second : String} :
    bytes first < bytes second ↔ first < second := by
  refine ⟨fun less => ?_, bytes_lt_bytes⟩
  rcases lt_trichotomy first second with before | rfl | behind
  · exact before
  · exact absurd less (List.lt_irrefl _)
  · exact absurd (bytes_lt_bytes behind) (List.lt_asymm less)

end ConfTree.Text
