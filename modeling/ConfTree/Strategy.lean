/-
Module: ConfTree.Strategy
Purpose: The disciplines by which a table files its keys.
Main exports:
  Strategy, Strategy.name, Strategy.ofName?, Strategy.keyClass
-/

namespace ConfTree

/-!
A table of configuration values files its keys in one of three ways.  Two
things depend on the choice: which keys count as the same key, and the order in
which the entries are walked.  The first is captured by `Strategy.keyClass`:
two keys name the same entry exactly when their classes are equal.
-/

/-- How a table files its keys. -/
inductive Strategy where
  /-- Keys are kept in ascending order. -/
  | ordered
  /-- Keys are kept in no particular order. -/
  | hashed
  /-- No particular order; keys that differ only in ASCII case are one key. -/
  | hashedCaseInsensitive
deriving Repr, Inhabited, DecidableEq

namespace Strategy

/-- Every strategy, in the order in which they are listed to a user. -/
def all : List Strategy := [ordered, hashed, hashedCaseInsensitive]

/-- The name by which a user asks for a strategy. -/
def name : Strategy → String
  | ordered => "ordered"
  | hashed => "hashed"
  | hashedCaseInsensitive => "hashed-case-insensitive"

/-- The strategy of that exact name, if there is one. -/
def ofName? (text : String) : Option Strategy :=
  all.find? fun strategy => strategy.name == text

/-- The key with its ASCII capitals made small; all other characters stay. -/
def foldCase (key : String) : String :=
  String.ofList (key.toList.map Char.toLower)

/-- What decides whether two keys name the same entry. -/
def keyClass : Strategy → String → String
  | ordered, key | hashed, key => key
  | hashedCaseInsensitive, key => foldCase key

end Strategy

end ConfTree
