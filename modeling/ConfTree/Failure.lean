/-
Module: ConfTree.Failure
Purpose: Why an operation on configuration values fails.
Main exports:
  Failure, Failure.message
-/
import ConfTree.Json.Fault
import ConfTree.Value.Basic

namespace ConfTree

/-- Why an operation on values, tables, cursors or paths fails. -/
inductive Failure where
  /-- A value of one kind is wanted and one of another kind is there. -/
  | typeMismatch (expected found : Kind)
  /-- A table files nothing under the key. -/
  | keyNotFound (key : String)
  /-- An index, as it is written, lies outside a sequence of that length. -/
  | indexOutOfRange (index : Int64) (length : Nat)
  /-- A path segment that addresses a sequence is not an index. -/
  | invalidIndex (segment : String)
  /-- A path goes on at a scalar of that kind. -/
  | segmentInScalar (segment : String) (kind : Kind)
  /-- A cursor is invalid or past its last entry. -/
  | invalidCursor
  /-- There is no strategy of that name. -/
  | invalidStrategy (name : String)
  /-- JSON has a null at that path, and there is no value for it. -/
  | unsupportedNull (path : String)
  /-- A text is not JSON. -/
  | malformedJson (error : Json.SyntaxError)
deriving Repr, DecidableEq

/-- The wording of a failure. -/
def Failure.message : Failure → String
  | typeMismatch expected found =>
      "type mismatch: expected " ++ expected.name ++ ", found " ++ found.name
  | keyNotFound key => "key not found: '" ++ key ++ "'"
  | indexOutOfRange index length =>
      "index " ++ toString index.toInt ++ " out of range for sequence of length " ++
        toString length
  | invalidIndex segment => "invalid sequence index '" ++ segment ++ "'"
  | segmentInScalar segment _ =>
      "unsupported value at '" ++ segment ++ "' for dotted lookup"
  | invalidCursor => "cannot dereference or advance an invalid iterator"
  | invalidStrategy name =>
      "invalid map strategy '" ++ name ++
        "' (expected ordered, hashed or hashed-case-insensitive)"
  | unsupportedNull path => "null is not representable (at '" ++ path ++ "')"
  | malformedJson error => "JSON error: " ++ error.message

/-- The strategy of that exact name. -/
def Strategy.ofName (text : String) : Except Failure Strategy :=
  match Strategy.ofName? text with
  | some strategy => .ok strategy
  | none => .error (.invalidStrategy text)

end ConfTree
