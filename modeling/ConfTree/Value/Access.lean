/-
Module: ConfTree.Value.Access
Purpose: The contents of a value of a wanted kind.
Main exports:
  Value.asText, Value.asReal, Value.asInteger, Value.asBoolean, Value.asBoxed,
  Value.asSequence, Value.asMap, Table.at
-/
import ConfTree.Failure

namespace ConfTree

namespace Value

/-- The failure of a value that ought to be of another kind. -/
def mismatch {α : Type} (value : Value) (expected : Kind) : Except Failure α :=
  .error (.typeMismatch expected value.kind)

/-- The content of a text. -/
def asText : Value → Except Failure String
  | .text content => .ok content
  | other => other.mismatch .text

/-- The number of a real. -/
def asReal : Value → Except Failure Binary64
  | .real number => .ok number
  | other => other.mismatch .real

/-- The number of an integer. -/
def asInteger : Value → Except Failure Int64
  | .integer number => .ok number
  | other => other.mismatch .integer

/-- The truth value of a boolean. -/
def asBoolean : Value → Except Failure Bool
  | .boolean truth => .ok truth
  | other => other.mismatch .boolean

/-- The value in a box. -/
def asBoxed : Value → Except Failure Value
  | .boxed inner => .ok inner
  | other => other.mismatch .boxed

/-- The items of a sequence. -/
def asSequence : Value → Except Failure (List Value)
  | .sequence items => .ok items
  | other => other.mismatch .sequence

/-- The table of a map. -/
def asMap : Value → Except Failure (Table Value)
  | .map table => .ok table
  | other => other.mismatch .map

end Value

/-- The value that a table must file under a key. -/
def Table.at {α : Type} (table : Table α) (key : String) : Except Failure α :=
  match table.get? key with
  | some value => .ok value
  | none => .error (.keyNotFound key)

end ConfTree
