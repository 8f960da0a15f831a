/-
Module: ConfTree.Value.Basic
Purpose: Configuration values and their kinds.
Main exports:
  Value, Kind, Value.kind, Value.isScalar, Value.unboxed
-/
import ConfTree.Binary64.Basic
import ConfTree.Table.Basic

namespace ConfTree

/-!
A configuration value is one of four scalars, a box around another value, a
sequence or a table.  A container owns what is in it, so a value is a finite tree
and a copy of it is the value itself.
-/

/-- A configuration value. -/
inductive Value where
  | text (content : String)
  | real (number : Binary64)
  | integer (number : Int64)
  | boolean (truth : Bool)
  /-- A layer around one value. -/
  | boxed (inner : Value)
  | sequence (items : List Value)
  | map (table : Table Value)

/-- The alternatives of a value without their contents. -/
inductive Kind where
  | text
  | real
  | integer
  | boolean
  | boxed
  | sequence
  | map
deriving Repr, Inhabited, DecidableEq

namespace Kind

/-- Every kind, scalars first. -/
def all : List Kind := [text, real, integer, boolean, boxed, sequence, map]

/-- The name of a kind. -/
def name : Kind → String
  | text => "text"
  | real => "real"
  | integer => "integer"
  | boolean => "boolean"
  | boxed => "boxed"
  | sequence => "sequence"
  | map => "map"

/-- The kind of that exact name, if there is one. -/
def ofName? (text : String) : Option Kind := all.find? fun kind => kind.name == text

end Kind

namespace Value

/-- The value of an entry that nobody has given one yet: the empty text. -/
def fallback : Value := .text ""

instance : Inhabited Value := ⟨fallback⟩

/-- The kind of a value. -/
def kind : Value → Kind
  | .text _ => .text
  | .real _ => .real
  | .integer _ => .integer
  | .boolean _ => .boolean
  | .boxed _ => .boxed
  | .sequence _ => .sequence
  | .map _ => .map

/-- Whether a value has no other values in it. -/
def isScalar : Value → Bool
  | .text _ | .real _ | .integer _ | .boolean _ => true
  | .boxed _ | .sequence _ | .map _ => false

/-- The value inside all layers around it. -/
def unboxed : Value → Value
  | .boxed inner => inner.unboxed
  | value => value

/-- The value with that many layers around it. -/
def wrapped : Nat → Value → Value
  | 0, value => value
  | layers + 1, value => .boxed (wrapped layers value)

end Value

end ConfTree
