/-
Module: ConfTree.Json.Literal
Purpose: Number literals of JSON: how they are read and which number they give.
Main exports:
  Json.Literal, Json.Literal.text, Json.Literal.read, Json.Literal.value
-/
import ConfTree.Binary64.Rounding
import ConfTree.Json.Basic
import ConfTree.Json.Fault

namespace ConfTree.Json

/-!
A literal is first read as its parts and then evaluated.  Digits are taken into a
significand as long as it stays a natural number of 64 bits.  The digits of the
whole part that no longer fit count as powers of ten, those of the fraction are
dropped.  A literal without fraction and exponent whose digits all fit is a whole
number; any other literal is a real: the significand is rounded to a binary
number, and that is multiplied or divided by a rounded power of ten, which rounds
once more.
-/

/-- The parts of a number literal, as lists of decimal digits. -/
structure Literal where
  negative : Bool
  whole : List Char
  fraction : Option (List Char)
  /-- Whether the exponent is negative, and its digits. -/
  exponent : Option (Bool × List Char)
deriving Repr

namespace Literal

/-! ### Evaluation -/

/-- Bound on the significand. -/
def significandLimit : Nat := Nat.pow 2 64

/-- The greatest magnitude of a whole number below zero. -/
def negativeLimit : Nat := Nat.pow 2 63

/-- Bound on the digits of an exponent. -/
def exponentLimit : Nat := Nat.pow 2 31

/-- The value of a decimal digit. -/
def digitValue (c : Char) : Nat := c.toNat - '0'.toNat

/-- Take digits into a number as long as it stays below a limit; answers the
number and the digits that are left. -/
def absorb (limit : Nat) : Nat → List Char → Nat × List Char
  | number, [] => (number, [])
  | number, digit :: rest =>
      let longer := number * 10 + digitValue digit
      if longer < limit then absorb limit longer rest
      else (number, digit :: rest)

/-- Divide by the greatest power of ten that is used at all, that many times. -/
def shrink : Nat → Binary64 → Binary64
  | 0, x => x
  | times + 1, x =>
      if x.isZero then x else shrink times (x.dividedBy (.powerOfTen 308))

/-- Scale a number by a power of ten; fails if the result would be infinite. -/
def scale? (x : Binary64) (exponent : Int) : Option Binary64 :=
  if 0 ≤ exponent then
    if exponent ≤ 308 then
      let scaled := x.times (.powerOfTen exponent.toNat)
      if scaled.isInfinite then none else some scaled
    else if x.isZero then some x
    else none
  else
    let places := exponent.natAbs
    let rounds := (places - 1) / 308
    some ((shrink rounds x).dividedBy (.powerOfTen (places - 308 * rounds)))

/-- A number with the sign of the literal. -/
def signed (literal : Literal) (x : Binary64) : Binary64 :=
  if literal.negative then x.negate else x

/-- The whole number of a significand, or a real if that is zero with a minus sign
or below the least number of 64 bits. -/
def integerValue (literal : Literal) (significand : Nat) : Json :=
  if literal.negative then
    if 0 < significand ∧ significand ≤ negativeLimit then .integer (-(significand : Int))
    else .real (literal.signed (.ofNat significand))
  else .integer significand

/-- The real number of a significand and a power of ten.  A failure answers the
digits of the literal that had not been looked at. -/
def realValue (literal : Literal) (significand : Nat) (exponent : Int) :
    Except (List Char) Json :=
  match scale? (.ofNat significand) exponent with
  | some x => .ok (.real (literal.signed x))
  | none => .error []

/-- The number that a literal stands for.  A failure means that it is out of range;
it answers the digits of the literal that had not been looked at by then. -/
def value (literal : Literal) : Except (List Char) Json :=
  let (leading, beyond) := absorb significandLimit 0 literal.whole
  match literal.fraction, literal.exponent with
  | none, none =>
      if beyond.isEmpty then .ok (literal.integerValue leading)
      else literal.realValue leading beyond.length
  | fraction, exponent =>
      let places := fraction.getD []
      let (significand, dropped) := absorb significandLimit leading places
      let shift : Int := beyond.length - (places.length - dropped.length : Nat)
      match exponent with
      | none => literal.realValue significand shift
      | some (below, digits) =>
          match absorb exponentLimit 0 digits with
          | (power, []) =>
              literal.realValue significand (if below then shift - power else shift + power)
          | (_, _ :: unread) =>
              if significand = 0 ∨ below then .ok (.real (literal.signed (.ofNat 0)))
              else .error unread

/-! ### Reading -/

/-- The text of a literal. -/
def text (literal : Literal) : List Char :=
  (if literal.negative then ['-'] else []) ++ literal.whole ++
    (match literal.fraction with
     | none => []
     | some digits => '.' :: digits) ++
    (match literal.exponent with
     | none => []
     | some (below, digits) => 'e' :: (if below then '-' :: digits else digits))

/-- Split off the decimal digits at the front. -/
def takeDigits (text : List Char) : List Char × List Char :=
  (text.takeWhile Char.isDigit, text.dropWhile Char.isDigit)

/-- Read the digits in front of the point: a lone zero, or digits that do not begin
with one. -/
def readWhole : List Char → Except Fault (List Char × List Char)
  | [] => .error ⟨.endInValue, [], 0⟩
  | '0' :: rest =>
      match rest with
      | c :: _ => if c.isDigit then .error ⟨.invalidNumber, rest, 1⟩ else .ok (['0'], rest)
      | [] => .ok (['0'], [])
  | c :: rest =>
      if c.isDigit then
        let (digits, rest) := takeDigits rest
        .ok (c :: digits, rest)
      else .error ⟨.invalidNumber, c :: rest, 1⟩

/-- Read a point and at least one digit, if there is a point. -/
def readFraction : List Char → Except Fault (Option (List Char) × List Char)
  | '.' :: rest =>
      match takeDigits rest with
      | ([], []) => .error ⟨.endInValue, [], 0⟩
      | ([], rest) => .error ⟨.invalidNumber, rest, 1⟩
      | (digits, rest) => .ok (some digits, rest)
  | rest => .ok (none, rest)

/-- Read the digits of an exponent. -/
def readExponentDigits (below : Bool) (text : List Char) :
    Except Fault (Option (Bool × List Char) × List Char) :=
  match takeDigits text with
  | ([], []) => .error ⟨.endInValue, [], 0⟩
  | ([], rest) => .error ⟨.invalidNumber, rest, 1⟩
  | (digits, rest) => .ok (some (below, digits), rest)

/-- Read an exponent with its sign and at least one digit, if there is a letter for
it. -/
def readExponent : List Char → Except Fault (Option (Bool × List Char) × List Char)
  | c :: rest =>
      if c = 'e' ∨ c = 'E' then
        match rest with
        | '-' :: rest => readExponentDigits true rest
        | '+' :: rest => readExponentDigits false rest
        | rest => readExponentDigits false rest
      else .ok (none, c :: rest)
  | [] => .ok (none, [])

/-- Read the parts of a literal. -/
def scan (text : List Char) : Except Fault (Literal × List Char) := do
  let (negative, rest) :=
    match text with
    | '-' :: rest => (true, rest)
    | rest => (false, rest)
  let (whole, rest) ← readWhole rest
  let (fraction, rest) ← readFraction rest
  let (exponent, rest) ← readExponent rest
  return ({ negative, whole, fraction, exponent }, rest)

/-- Read a literal and give the number that it stands for. -/
def read (text : List Char) : Except Fault (Json × List Char) := do
  let (literal, rest) ← scan text
  match literal.value with
  | .ok number => return (number, rest)
  | .error unread => throw ⟨.numberOutOfRange, unread ++ rest, 0⟩

end Literal

end ConfTree.Json
