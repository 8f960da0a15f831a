/-
Module: ConfTree.Value.Json
Purpose: Configuration values as JSON documents and back.
Main exports:
  Value.toJson, Value.ofJson, Value.read, Value.compact, Value.pretty
-/
import ConfTree.Failure
import ConfTree.Json.Reader
import ConfTree.Json.Writer

namespace ConfTree

/-!
A value is written as JSON by leaving out its boxes and walking its tables in
order.  In the other direction every object becomes a table of one strategy, its
members filed one after the other; a null has no counterpart, and the first one in
document order is reported with its path.
-/

/-! ### Writing -/

mutual

/-- The document of a value. -/
def Value.toJson : Value → Json
  | .text content => .string content
  | .real number => .real number
  | .integer number => .integer number.toInt
  | .boolean truth => .boolean truth
  | .boxed inner => inner.toJson
  | .sequence items => .array (Value.itemsToJson items)
  | .map ⟨_, slots⟩ => .object (Value.slotsToJson slots)

/-- The documents of the items of a sequence. -/
def Value.itemsToJson : List Value → List Json
  | [] => []
  | item :: rest => item.toJson :: Value.itemsToJson rest

/-- The members for the slots of a table. -/
def Value.slotsToJson : List (Slot Value) → List (String × Json)
  | [] => []
  | ⟨_, key, value⟩ :: rest => (key, value.toJson) :: Value.slotsToJson rest

end

/-- The document of a table. -/
def Table.toJson (table : Table Value) : Json :=
  .object (Value.slotsToJson table.slots)

namespace Value

/-- The value on one line of JSON. -/
def compact (value : Value) : String := value.toJson.compact

/-- The value as JSON with a line for each item. -/
def pretty (value : Value) : String := value.toJson.pretty

/-! ### Reading -/

/-- The path of a child.  The root has the empty path and adds no dot. -/
def childPath (parent segment : String) : String :=
  if parent.isEmpty then segment else parent ++ "." ++ segment

/-- The number of a document: an integer if it fits 64 bits with sign, and a real
otherwise. -/
def ofWhole (number : Int) : Value :=
  if Int64.minValue.toInt ≤ number ∧ number ≤ Int64.maxValue.toInt then
    .integer (Int64.ofInt number)
  else .real (Binary64.ofInt number)

mutual

/-- The value of the document at a path. -/
def convert (strategy : Strategy) (path : String) : Json → Except Failure Value
  | .null => .error (.unsupportedNull path)
  | .boolean truth => .ok (.boolean truth)
  | .integer number => .ok (ofWhole number)
  | .real number => .ok (.real number)
  | .string content => .ok (.text content)
  | .array items =>
      match convertItems strategy path 0 items with
      | .ok values => .ok (.sequence values)
      | .error failure => .error failure
  | .object members =>
      match convertMembers strategy path members with
      | .ok pairs => .ok (.map (Table.ofList strategy pairs))
      | .error failure => .error failure

/-- The values of the items of the array at a path, from that index on. -/
def convertItems (strategy : Strategy) (path : String) (index : Nat) :
    List Json → Except Failure (List Value)
  | [] => .ok []
  | item :: rest =>
      match convert strategy (childPath path (toString index)) item with
      | .error failure => .error failure
      | .ok value =>
          match convertItems strategy path (index + 1) rest with
          | .error failure => .error failure
          | .ok values => .ok (value :: values)

/-- The pairs for the members of the object at a path. -/
def convertMembers (strategy : Strategy) (path : String) :
    List (String × Json) → Except Failure (List (String × Value))
  | [] => .ok []
  | (name, member) :: rest =>
      match convert strategy (childPath path name) member with
      | .error failure => .error failure
      | .ok value =>
          match convertMembers strategy path rest with
          | .error failure => .error failure
          | .ok pairs => .ok ((name, value) :: pairs)

end

/-- The value of a document whose objects become tables of that strategy. -/
def ofJson (strategy : Strategy) (json : Json) : Except Failure Value :=
  convert strategy "" json

/-- The value of a JSON text whose objects become tables of that strategy. -/
def read (strategy : Strategy) (text : String) : Except Failure Value :=
  match Json.read text with
  | .ok json => ofJson strategy json
  | .error error => .error (.malformedJson error)

end Value

end ConfTree
