/-
Module: ConfTree.Proofs.Table.Walking
Purpose: Walking a table and writing on the way changes values only.
Main exports:
  Cursor.table?_cursor, Cursor.Action, Cursor.act, Cursor.play, Cursor.play_sameKeys
-/
import ConfTree.Proofs.Table.Filing
import ConfTree.Table.Cursor

namespace ConfTree

/-!
A cursor can be moved in two ways and can write in two ways, and it can be frozen.
Whatever it does, the table under it is taken apart at one position, so a move leaves
the table as it is and a write changes one value.  What a slot is filed under, how its
key is spelled, and how many slots there are stay the same.
-/

namespace Table

variable {α : Type}

namespace SameKeys

theorem refl (table : Table α) : SameKeys table table := ⟨rfl, rfl⟩

theorem trans {first second third : Table α} (one : SameKeys first second)
    (two : SameKeys second third) : SameKeys first third :=
  ⟨one.1.trans two.1, one.2.trans two.2⟩

/-- The key that is stored under a class does not depend on the values. -/
theorem map_key_slot? {first second : Table α} (same : SameKeys first second)
    (filed : String) :
    (second.slot? filed).map (·.key) = (first.slot? filed).map (·.key) := by
  have byKeys (table : Table α) : (table.slot? filed).map (·.key) =
      ((table.slots.map fun slot => (slot.filed, slot.key)).find? (·.1 == filed)).map (·.2) := by
    rw [List.find?_map, Option.map_map]
    rfl
  rw [byKeys, byKeys, same.2]

end SameKeys

end Table

namespace Walk

variable {α : Type}

theorem table_fetch (owner : Nat) (strategy : Strategy) (passed slots : List (Slot α)) :
    (fetch owner strategy passed slots).table = ⟨strategy, passed.reverse ++ slots⟩ := by
  rw [table, strategy_fetch, passed_fetch, ahead_fetch]

theorem table_forward (walk : Walk α) : walk.forward.table = walk.table := by
  rw [forward]
  cases front : walk.front with
  | none => rfl
  | some slot =>
      rw [table_fetch, table, ahead, front]
      simp

theorem sameKeys_overwrite (walk : Walk α) (value : α) :
    Table.SameKeys walk.table (walk.overwrite value).table := by
  rw [overwrite]
  cases front : walk.front with
  | none => exact .refl _
  | some slot => exact ⟨rfl, by simp [table, ahead, front]⟩

theorem sameKeys_overwritePassed (walk : Walk α) (number : Nat) (value : α) :
    Table.SameKeys walk.table (walk.overwritePassed number value).table := by
  have keys : (walk.passed.modify number fun slot => { slot with value }).map
      (fun slot => (slot.filed, slot.key)) = walk.passed.map fun slot => (slot.filed, slot.key) := by
    apply List.ext_getElem?
    intro position
    rw [List.getElem?_map, List.getElem?_map, List.getElem?_modify]
    cases walk.passed[position]? with
    | none => rfl
    | some slot => split <;> rfl
  exact ⟨rfl, by simp [overwritePassed, table, ahead, keys]⟩

end Walk

namespace Cursor

variable {α : Type}

/-! ### The table under a cursor -/

theorem table?_cursor (table : Table α) (access : Access) (owner : Nat) :
    (table.cursor access owner).table? = some table := by
  simp [Table.cursor, table?, Walk.table_fetch]

theorem table?_cursorAt (table : Table α) (key : String) (owner : Nat) :
    (table.cursorAt key owner).table? = some table := by
  simp [Table.cursorAt, table?, Walk.table_fetch]

/-! ### Actions -/

/-- What may be done with a cursor. -/
inductive Action (α : Type) where
  | advance
  | next
  /-- Write to the entry under the cursor. -/
  | write (value : α)
  /-- Write to an entry that was handed out before, counted back from the cursor. -/
  | writePassed (number : Nat) (value : α)
  | freeze

/-- The cursor after an action; one that fails leaves it as it is. -/
def act (cursor : Cursor α) : Action α → Cursor α
  | .advance =>
      match cursor.advance with
      | .ok further => further
      | .error _ => cursor
  | .next => cursor.next.2
  | .write value =>
      match cursor.write value with
      | .ok (_, written) => written
      | .error _ => cursor
  | .writePassed number value => cursor.writePassed number value
  | .freeze => cursor.freeze

/-- The cursor after several actions. -/
def play (cursor : Cursor α) (actions : List (Action α)) : Cursor α :=
  actions.foldl act cursor

/-- An action moves the walk, writes to it, or leaves it as it is. -/
theorem walk_act (cursor : Cursor α) (action : Action α) :
    (cursor.act action).walk = cursor.walk ∨
      (cursor.act action).walk = cursor.walk.map Walk.forward ∨
      (∃ value, (cursor.act action).walk = cursor.walk.map (·.overwrite value)) ∨
      ∃ number value,
        (cursor.act action).walk = cursor.walk.map (·.overwritePassed number value) := by
  cases action with
  | advance =>
      rw [act, advance]
      cases cursor.isEnd || !cursor.isValid with
      | true => exact .inl rfl
      | false => exact .inr (.inl rfl)
  | next => exact .inr (.inl rfl)
  | write value =>
      rw [act, write]
      cases cursor.access with
      | readOnly => exact .inl rfl
      | writable =>
          cases cursor.front? with
          | none => exact .inl rfl
          | some entry => exact .inr (.inr (.inl ⟨value, rfl⟩))
  | writePassed number value => exact .inr (.inr (.inr ⟨number, value, rfl⟩))
  | freeze => exact .inl rfl

/-- One action keeps every key of the table under the cursor. -/
theorem act_sameKeys {cursor : Cursor α} {table : Table α} (onTable : cursor.table? = some table)
    (action : Action α) :
    ∃ after, (cursor.act action).table? = some after ∧ Table.SameKeys table after := by
  rcases Option.map_eq_some_iff.mp onTable with ⟨walk, here, rfl⟩
  simp only [table?]
  rcases cursor.walk_act action with same | moved | ⟨value, written⟩ | ⟨number, value, written⟩
  · exact ⟨walk.table, by rw [same, here]; rfl, .refl _⟩
  · exact ⟨walk.forward.table, by rw [moved, here]; rfl, walk.table_forward ▸ .refl _⟩
  · exact ⟨(walk.overwrite value).table, by rw [written, here]; rfl,
      walk.sameKeys_overwrite value⟩
  · exact ⟨(walk.overwritePassed number value).table, by rw [written, here]; rfl,
      walk.sameKeys_overwritePassed number value⟩

/-- Any number of actions keep every key of the table under the cursor. -/
theorem play_sameKeys {cursor : Cursor α} {table : Table α} (onTable : cursor.table? = some table)
    (actions : List (Action α)) :
    ∃ after, (cursor.play actions).table? = some after ∧ Table.SameKeys table after := by
  induction actions generalizing cursor table with
  | nil => exact ⟨table, onTable, .refl table⟩
  | cons action rest ih =>
      rcases act_sameKeys onTable action with ⟨middle, onMiddle, first⟩
      rcases ih onMiddle with ⟨after, onAfter, later⟩
      exact ⟨after, onAfter, first.trans later⟩

end Cursor

end ConfTree
