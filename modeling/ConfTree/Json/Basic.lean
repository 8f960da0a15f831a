/-
Module: ConfTree.Json.Basic
Purpose: JSON documents as trees.
Main exports:
  Json, Json.member?, Json.setMember, Json.ofMembers
-/
import ConfTree.Binary64.Basic

namespace ConfTree

/-!
A JSON document after reading.  Numbers without fraction and exponent are kept as
whole numbers where the reader can hold them; every other number is a binary real.
An object keeps its members in a list, since their order matters to whoever
converts the tree.
-/

/-- A JSON document. -/
inductive Json where
  | null
  | boolean (value : Bool)
  | integer (value : Int)
  | real (value : Binary64)
  | string (value : String)
  | array (items : List Json)
  | object (members : List (String × Json))
deriving Repr, Inhabited

namespace Json

/-- The value of the first member of that name. -/
def member? (members : List (String × Json)) (name : String) : Option Json :=
  (members.find? fun member => member.1 == name).map (·.2)

section Members

variable {α : Type}

/-- Give a member its value: in place if there is one of that name, and at the end
otherwise. -/
def setMember (members : List (String × α)) (name : String) (value : α) :
    List (String × α) :=
  if members.any fun member => member.1 == name then
    members.map fun member => if member.1 == name then (name, value) else member
  else members ++ [(name, value)]

/-- The members of an object as they are read: a repeated name keeps its first
place and takes its last value. -/
def ofMembers (read : List (String × α)) : List (String × α) :=
  read.foldl (fun members member => setMember members member.1 member.2) []

end Members

end Json

end ConfTree
