/-
Module: ConfTree.Value.Equality
Purpose: When two configuration values are equal.
Main exports:
  Value.equal, Table.equal
-/
import ConfTree.Value.Basic

namespace ConfTree

/-!
Values are equal when they are of the same kind and their contents are.  Reals are
compared as numbers, so the two zeros are equal and what is not a number differs
from itself.

Two tables are equal only if they have the same strategy.  Ordered ones are compared
slot by slot as they are walked.  The others must have the same number of entries,
and each value of the first must equal the one that the second files under the same
key class; neither the walking order nor the spelling of the stored keys plays a
part then.
-/

mutual

/-- Whether two values are equal. -/
def Value.equal : Value → Value → Bool
  | .text left, .text right => left == right
  | .real left, .real right => left.equal right
  | .integer left, .integer right => left == right
  | .boolean left, .boolean right => left == right
  | .boxed left, .boxed right => Value.equal left right
  | .sequence left, .sequence right => Value.equalItems left right
  | .map ⟨strategy, slots⟩, .map other =>
      strategy == other.strategy &&
        match strategy with
        | .ordered => Value.equalSlots slots other.slots
        | .hashed | .hashedCaseInsensitive =>
            slots.length == other.slots.length && Value.slotsWithin slots other
  | _, _ => false

/-- Whether two lists of values are equal item by item. -/
def Value.equalItems : List Value → List Value → Bool
  | [], [] => true
  | left :: lefts, right :: rights =>
      Value.equal left right && Value.equalItems lefts rights
  | _, _ => false

/-- Whether two lists of slots are equal slot by slot. -/
def Value.equalSlots : List (Slot Value) → List (Slot Value) → Bool
  | [], [] => true
  | ⟨filed, _, value⟩ :: lefts, right :: rights =>
      filed == right.filed && Value.equal value right.value &&
        Value.equalSlots lefts rights
  | _, _ => false

/-- Whether each value equals the one that a table files under the same class. -/
def Value.slotsWithin : List (Slot Value) → Table Value → Bool
  | [], _ => true
  | ⟨filed, _, value⟩ :: rest, other =>
      (match other.slot? filed with
       | some counterpart => Value.equal value counterpart.value
       | none => false) && Value.slotsWithin rest other

end

/-- Whether two tables are equal. -/
def Table.equal (left right : Table Value) : Bool :=
  Value.equal (.map left) (.map right)

end ConfTree
