/-
Module: ConfTree.Path
Purpose: Dotted paths into configuration values.
Main exports:
  Path.head, Path.tail?, Path.readIndex?, Value.descend, Value.resolve, Table.resolve
-/
import ConfTree.Value.Access

namespace ConfTree

/-!
A path is a text whose dots separate its segments; a segment may be empty, and a
path has at least one.  It is cut at its first dot: the segment in front of the dot
leads to a child, and the rest is a path from there.  At a map the segment is a key; at
a sequence it is an index, which counts from the end when it is negative.  Boxes are
passed through before a segment is used, never after the last one.
-/

namespace Path

/-- The segment of a path in front of its first dot. -/
def head (path : String) : String := String.ofList (path.toList.takeWhile (· != '.'))

/-- The path behind the first dot, if there is a dot. -/
def tail? (path : String) : Option String :=
  match path.toList.dropWhile (· != '.') with
  | [] => none
  | _ :: rest => some (String.ofList rest)

theorem length_lt_of_tail? {path rest : String} (behind : tail? path = some rest) :
    rest.length < path.length := by
  have shorter := (path.toList.dropWhile_suffix (· != '.')).length_le
  rw [tail?] at behind
  split at behind
  · cases behind
  case h_2 dotted =>
      cases behind
      rw [dotted, List.length_cons, String.length_toList] at shorter
      rw [String.length_ofList]
      exact shorter

/-- The index that a segment spells: an optional sign and decimal digits, within 64
bits. -/
def readIndex? (segment : String) : Option Int64 :=
  let (negative, digits) :=
    match segment.toList with
    | '-' :: digits => (true, digits)
    | '+' :: digits => (false, digits)
    | digits => (false, digits)
  if digits.isEmpty || !digits.all Char.isDigit then none
  else
    let size : Int := Nat.ofDigitChars 10 digits 0
    let index := if negative then -size else size
    if Int64.minValue.toInt ≤ index ∧ index ≤ Int64.maxValue.toInt then
      some (Int64.ofInt index)
    else none

/-- The place that an index names in a sequence of that length, as a sum of 64 bits; a
negative index counts from the end. -/
def place (index : Int64) (length : Nat) : Int64 :=
  if index < 0 then index + Int64.ofNat length else index

/-- The position in a list for a place; there is none below zero. -/
def position? (place : Int64) : Option Nat :=
  if place < 0 then none else some place.toNatClampNeg

/-- The item of a sequence that a segment addresses. -/
def itemAt (items : List Value) (segment : String) : Except Failure Value :=
  match readIndex? segment with
  | none => .error (.invalidIndex segment)
  | some index =>
      match (position? (place index items.length)).bind fun position => items[position]? with
      | some item => .ok item
      | none => .error (.indexOutOfRange index items.length)

end Path

namespace Value

/-- The value that one segment leads to. -/
def descend (value : Value) (segment : String) : Except Failure Value :=
  match value.unboxed with
  | .map table => table.at segment
  | .sequence items => Path.itemAt items segment
  | scalar => .error (.segmentInScalar segment scalar.kind)

/-- The value at a path. -/
def resolve (value : Value) (path : String) : Except Failure Value :=
  match value.descend (Path.head path) with
  | .error failure => .error failure
  | .ok child =>
      match _ : Path.tail? path with
      | some rest => child.resolve rest
      | none => .ok child
termination_by path.length
decreasing_by exact Path.length_lt_of_tail? ‹_›

end Value

/-- The value at a path that begins with a key of the table. -/
def Table.resolve (table : Table Value) (path : String) : Except Failure Value :=
  match table.at (Path.head path) with
  | .error failure => .error failure
  | .ok child =>
      match Path.tail? path with
      | some rest => child.resolve rest
      | none => .ok child

end ConfTree
