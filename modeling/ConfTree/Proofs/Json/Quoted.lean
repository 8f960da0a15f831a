/-
Module: ConfTree.Proofs.Json.Quoted
Purpose: A quoted string reads back as the text that it was written from.
Main exports:
  Json.Quoted.readBody_escape, Json.Quoted.read_write
-/
import ConfTree.Json.Quoted

namespace ConfTree.Json.Quoted

/-!
Each character is written by itself, by a letter behind a backslash, or as a unit of
four hexadecimal digits.  Whichever it is, the reader takes exactly that much and
answers that character, whatever stands behind it.
-/

theorem hexValue?_digitChar {n : Nat} (small : n < 16) :
    hexValue? (Nat.digitChar n) = some n := by
  have every : ∀ digit < 16, hexValue? (Nat.digitChar digit) = some digit := by decide
  exact every n small

/-- The unit of a character that is written by its number. -/
theorem unit?_hexPair {n : Nat} (small : n < 256) :
    unit? '0' '0' (Nat.digitChar (n / 16)) (Nat.digitChar (n % 16)) = some n := by
  have zero : hexValue? '0' = some 0 := by decide
  have high : hexValue? (Nat.digitChar (n / 16)) = some (n / 16) :=
    hexValue?_digitChar (by omega)
  have low : hexValue? (Nat.digitChar (n % 16)) = some (n % 16) :=
    hexValue?_digitChar (by omega)
  simp only [unit?, zero, high, low, Option.bind_eq_bind, Option.bind_some, Option.pure_def]
  congr 1
  omega

/-- A character that is written by its number reads back. -/
theorem readBody_hexPair (c : Char) (small : c.toNat < 32) (rest : List Char) :
    readBody ('\\' :: 'u' :: '0' :: '0' :: hexPair c.toNat ++ rest) =
      andThen c (readBody rest) := by
  have notTrailing : isTrailing c.toNat = false := by simp [isTrailing]; omega
  have notLeading : isLeading c.toNat = false := by simp [isLeading]; omega
  simp only [hexPair, List.cons_append, List.nil_append]
  rw [readBody, unit?_hexPair (by omega)]
  simp only [notTrailing, notLeading, Bool.false_eq_true, if_false, Char.ofNat_toNat]

/-- A character that stands for itself reads back. -/
theorem readBody_plain {c : Char} (notQuote : c ≠ '"') (notBackslash : c ≠ '\\')
    (notControl : ¬ c.toNat < 32) (rest : List Char) :
    readBody (c :: rest) = andThen c (readBody rest) := by
  rw [readBody, if_neg notControl]
  all_goals simp_all

/-- A character reads back, whatever follows it. -/
theorem readBody_escape (c : Char) (rest : List Char) :
    readBody (escape c ++ rest) = andThen c (readBody rest) := by
  rw [escape]
  split
  case isTrue quote => rw [quote]; rfl
  split
  case isTrue backslash => rw [backslash]; rfl
  split
  case isTrue backspace => rw [backspace]; rfl
  split
  case isTrue formFeed => rw [formFeed]; rfl
  split
  case isTrue lineFeed => rw [lineFeed]; rfl
  split
  case isTrue carriageReturn => rw [carriageReturn]; rfl
  split
  case isTrue tab => rw [tab]; rfl
  split
  case isTrue control => exact readBody_hexPair c control rest
  case isFalse notQuote notBackslash _ _ _ _ _ notControl =>
    exact readBody_plain notQuote notBackslash notControl rest

theorem readBody_flatMap_escape (chars rest : List Char) :
    readBody (chars.flatMap escape ++ '"' :: rest) = .ok (chars, rest) := by
  induction chars with
  | nil => rw [List.flatMap_nil, List.nil_append, readBody]
  | cons c others ih =>
      rw [List.flatMap_cons, List.append_assoc, readBody_escape, ih]
      rfl

/-- A written string reads back up to its closing quote. -/
theorem read_write (text : String) (rest : List Char) :
    read (text.toList.flatMap escape ++ '"' :: rest) = .ok (text, rest) := by
  rw [read, readBody_flatMap_escape]
  simp

end ConfTree.Json.Quoted
