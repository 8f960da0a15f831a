/-
Module: ConfTree.Json.Writer
Purpose: Writing trees as JSON text.
Main exports:
  Json.numberStyle, Json.compact, Json.pretty
-/
import ConfTree.Binary64.Text
import ConfTree.Json.Basic
import ConfTree.Json.Quoted

namespace ConfTree.Json

/-!
A tree is written in two forms.  The compact form has no blanks at all; the pretty
form gives each item a line of its own, two columns further in than its container,
and keeps empty containers on one line.
-/

/-- Real numbers are written positionally from a hundred-thousandth up to below ten
to the sixteenth, whole ones with a zero behind the point; of two shortest decimals
that are equally near the even one is taken. -/
def numberStyle : NumberStyle := ⟨.toEven, some (-5, 15), ['.', '0']⟩

/-- The text of a whole number. -/
def integerText (n : Int) : List Char :=
  if n < 0 then '-' :: digitChars n.natAbs else digitChars n.natAbs

/-- The text of a real number; JSON has none for what is not finite. -/
def realText (x : Binary64) : List Char :=
  if x.isFinite then x.text numberStyle else ['n', 'u', 'l', 'l']

/-- The text of a truth value. -/
def booleanText : Bool → List Char
  | true => ['t', 'r', 'u', 'e']
  | false => ['f', 'a', 'l', 's', 'e']

/-! ### Compact form -/

mutual

/-- The compact text of a tree. -/
def compactChars : Json → List Char
  | .null => ['n', 'u', 'l', 'l']
  | .boolean value => booleanText value
  | .integer value => integerText value
  | .real value => realText value
  | .string value => Quoted.write value
  | .array [] => ['[', ']']
  | .array (item :: rest) => '[' :: compactChars item ++ compactItems rest
  | .object [] => ['\x7b', '\x7d']
  | .object ((name, value) :: rest) =>
      '\x7b' :: Quoted.write name ++ ':' :: compactChars value ++ compactMembers rest

/-- The items after the first one, and the closing bracket. -/
def compactItems : List Json → List Char
  | [] => [']']
  | item :: rest => ',' :: compactChars item ++ compactItems rest

/-- The members after the first one, and the closing bracket. -/
def compactMembers : List (String × Json) → List Char
  | [] => ['\x7d']
  | (name, value) :: rest =>
      ',' :: Quoted.write name ++ ':' :: compactChars value ++ compactMembers rest

end

/-- A document on one line. -/
def compact (json : Json) : String := String.ofList json.compactChars

/-! ### Pretty form -/

/-- A new line that begins with that many blanks. -/
def newLine (indent : Nat) : List Char := '\n' :: List.replicate indent ' '

mutual

/-- The pretty text of a tree inside a line that is indented by so much. -/
def prettyChars (indent : Nat) : Json → List Char
  | .null => ['n', 'u', 'l', 'l']
  | .boolean value => booleanText value
  | .integer value => integerText value
  | .real value => realText value
  | .string value => Quoted.write value
  | .array [] => ['[', ']']
  | .array (item :: rest) =>
      '[' :: newLine (indent + 2) ++ prettyChars (indent + 2) item ++
        prettyItems indent rest
  | .object [] => ['\x7b', '\x7d']
  | .object ((name, value) :: rest) =>
      '\x7b' :: newLine (indent + 2) ++ Quoted.write name ++ ':' :: ' ' ::
        prettyChars (indent + 2) value ++ prettyMembers indent rest

/-- The items after the first one, and the closing bracket. -/
def prettyItems (indent : Nat) : List Json → List Char
  | [] => newLine indent ++ [']']
  | item :: rest =>
      ',' :: newLine (indent + 2) ++ prettyChars (indent + 2) item ++
        prettyItems indent rest

/-- The members after the first one, and the closing bracket. -/
def prettyMembers (indent : Nat) : List (String × Json) → List Char
  | [] => newLine indent ++ ['\x7d']
  | (name, value) :: rest =>
      ',' :: newLine (indent + 2) ++ Quoted.write name ++ ':' :: ' ' ::
        prettyChars (indent + 2) value ++ prettyMembers indent rest

end

/-- A document with a line for each item. -/
def pretty (json : Json) : String := String.ofList (json.prettyChars 0)

end ConfTree.Json
