/-
Module: ConfTree.Value.Edit
Purpose: Writing to a place deep inside a value.
Main exports:
  Value.Step, Value.child, Value.withChild, Value.reach, Value.edit
-/
import ConfTree.Value.Access

namespace ConfTree

/-!
A place inside a value is named by a chain of steps from the outside in.  Unlike a
dotted path a chain names boxes too, and each step fits one kind of value only.  An edit
goes along a chain, changes what it finds there, and puts everything on the way
together again.
-/

namespace Value

/-- One step from a value to a value in it. -/
inductive Step where
  /-- To the value that a map files under a key. -/
  | key (key : String)
  /-- To the item of a sequence at a position counted from zero. -/
  | item (position : Nat)
  /-- Into a box. -/
  | inside
deriving Repr, DecidableEq

/-- The value that a step leads to. -/
def child (value : Value) : Step → Except Failure Value
  | .key key => do
      let table ← value.asMap
      table.at key
  | .item position => do
      let items ← value.asSequence
      match items[position]? with
      | some item => .ok item
      | none => .error (.indexOutOfRange (Int64.ofNat position) items.length)
  | .inside => value.asBoxed

/-- The value with another one in the place that a step leads to. -/
def withChild : Value → Step → Value → Value
  | .map table, .key key, new => .map (table.modify key fun _ => new)
  | .sequence items, .item position, new => .sequence (items.set position new)
  | .boxed _, .inside, new => .boxed new
  | value, _, _ => value

/-- The value at the end of a chain of steps. -/
def reach (value : Value) : List Step → Except Failure Value
  | [] => .ok value
  | step :: rest =>
      match value.child step with
      | .ok child => child.reach rest
      | .error failure => .error failure

/-- Change what is at the end of a chain of steps; answers what was there and the whole
value afterwards. -/
def edit (value : Value) (change : Value → Except Failure Value) :
    List Step → Except Failure (Value × Value)
  | [] =>
      match change value with
      | .ok new => .ok (value, new)
      | .error failure => .error failure
  | step :: rest =>
      match value.child step with
      | .error failure => .error failure
      | .ok child =>
          match child.edit change rest with
          | .error failure => .error failure
          | .ok (found, new) => .ok (found, value.withChild step new)

/-- The sequence with one more item at its end. -/
def push (value item : Value) : Except Failure Value :=
  match value with
  | .sequence items => .ok (.sequence (items ++ [item]))
  | other => other.mismatch .sequence

end Value

end ConfTree
