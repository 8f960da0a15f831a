/-
Module: ConfTree.Json.Quoted
Purpose: Strings of JSON between quotes.
Main exports:
  Json.Quoted.read, Json.Quoted.write
-/
import ConfTree.Json.Fault

namespace ConfTree.Json.Quoted

/-!
A quoted string names a quote, a backslash and the control characters by escapes;
any other character may stand for itself.  An escape of four hexadecimal digits
names a unit of 16 bits.  A character beyond the first 65536 takes two of them, a
leading and a trailing surrogate, and neither may stand alone.
-/

/-! ### Writing -/

/-- The hexadecimal digits of a number below 256, two of them. -/
def hexPair (n : Nat) : List Char := [Nat.digitChar (n / 16), Nat.digitChar (n % 16)]

/-- A character as it is written between quotes. -/
def escape (c : Char) : List Char :=
  if c = '"' then ['\\', '"']
  else if c = '\\' then ['\\', '\\']
  else if c = '\x08' then ['\\', 'b']
  else if c = '\x0c' then ['\\', 'f']
  else if c = '\n' then ['\\', 'n']
  else if c = '\r' then ['\\', 'r']
  else if c = '\t' then ['\\', 't']
  else if c.toNat < 32 then '\\' :: 'u' :: '0' :: '0' :: hexPair c.toNat
  else [c]

/-- A string with its quotes. -/
def write (text : String) : List Char :=
  '"' :: (text.toList.flatMap escape ++ ['"'])

/-! ### Reading -/

/-- The value of a hexadecimal digit. -/
def hexValue? (c : Char) : Option Nat :=
  if c.isDigit then some (c.toNat - '0'.toNat)
  else if 'a' ≤ c ∧ c ≤ 'f' then some (c.toNat - 'a'.toNat + 10)
  else if 'A' ≤ c ∧ c ≤ 'F' then some (c.toNat - 'A'.toNat + 10)
  else none

/-- The unit of 16 bits that four hexadecimal digits name. -/
def unit? (a b c d : Char) : Option Nat := do
  let a ← hexValue? a
  let b ← hexValue? b
  let c ← hexValue? c
  let d ← hexValue? d
  return ((a * 16 + b) * 16 + c) * 16 + d

/-- The fault of a text that ought to begin with four hexadecimal digits and does
not: four bytes are taken before they are looked at. -/
def badUnit (rest : List Char) : Fault :=
  if byteCount rest < 4 then ⟨.endInString, [], 0⟩ else ⟨.invalidEscape, rest, 4⟩

/-- Whether a unit begins a pair. -/
def isLeading (unit : Nat) : Bool := 0xD800 ≤ unit && unit ≤ 0xDBFF

/-- Whether a unit ends a pair. -/
def isTrailing (unit : Nat) : Bool := 0xDC00 ≤ unit && unit ≤ 0xDFFF

/-- The character that a pair of surrogates names. -/
def pairedChar (leading trailing : Nat) : Char :=
  Char.ofNat ((leading - 0xD800) * 0x400 + (trailing - 0xDC00) + 0x10000)

/-- The character that a backslash and a letter name. -/
def shortEscape? : Char → Option Char
  | '"' => some '"'
  | '\\' => some '\\'
  | '/' => some '/'
  | 'b' => some '\x08'
  | 'f' => some '\x0c'
  | 'n' => some '\n'
  | 'r' => some '\r'
  | 't' => some '\t'
  | _ => none

/-- The fault of a leading surrogate that no trailing one follows. -/
def badPair : List Char → Fault
  | [] => ⟨.endInString, [], 0⟩
  | '\\' :: [] => ⟨.endInString, [], 0⟩
  | '\\' :: 'u' :: rest =>
      match rest with
      | a :: b :: c :: d :: after =>
          match unit? a b c d with
          | some _ => ⟨.loneSurrogate, after, 0⟩
          | none => badUnit rest
      | _ => badUnit rest
  | '\\' :: rest => ⟨.endInSurrogatePair, rest, 1⟩
  | rest => ⟨.endInSurrogatePair, rest, 1⟩

/-- Put a character in front of what is read after it. -/
def andThen (c : Char) :
    Except Fault (List Char × List Char) → Except Fault (List Char × List Char)
  | .ok (text, rest) => .ok (c :: text, rest)
  | .error fault => .error fault

/-- Read the characters of a string up to its closing quote. -/
def readBody : List Char → Except Fault (List Char × List Char)
  | [] => .error ⟨.endInString, [], 0⟩
  | '"' :: rest => .ok ([], rest)
  | '\\' :: [] => .error ⟨.endInString, [], 0⟩
  | '\\' :: 'u' :: a :: b :: c :: d :: rest =>
      match unit? a b c d with
      | none => .error (badUnit (a :: b :: c :: d :: rest))
      | some unit =>
          if isTrailing unit then .error ⟨.loneSurrogate, rest, 0⟩
          else if isLeading unit then
            match rest with
            | '\\' :: 'u' :: a :: b :: c :: d :: after =>
                match unit? a b c d with
                | none => .error (badPair rest)
                | some second =>
                    if isTrailing second then
                      andThen (pairedChar unit second) (readBody after)
                    else .error (badPair rest)
            | _ => .error (badPair rest)
          else andThen (Char.ofNat unit) (readBody rest)
  | '\\' :: c :: rest =>
      if c = 'u' then .error (badUnit rest)
      else
        match shortEscape? c with
        | some named => andThen named (readBody rest)
        | none => .error ⟨.invalidEscape, c :: rest, 1⟩
  | c :: rest =>
      if c.toNat < 32 then .error ⟨.controlCharacter, c :: rest, 1⟩
      else andThen c (readBody rest)

/-- Read a string whose opening quote has been read. -/
def read (text : List Char) : Except Fault (String × List Char) :=
  match readBody text with
  | .ok (chars, rest) => .ok (String.ofList chars, rest)
  | .error fault => .error fault

end ConfTree.Json.Quoted
