/-
Module: ConfTree.Proofs.Table.SamePosition
Purpose: Two cursors over one table are equal exactly if they are at the same position.
Main exports:
  Walk.mark, Walk.same_iff_length_ahead, Cursor.Follows, Cursor.same_iff_same_position
-/
import ConfTree.Proofs.Table.Position
import ConfTree.Proofs.Table.Spelling

namespace ConfTree

/-!
A comparison of two cursors looks at no position.  It looks at the strategies and at the stored
keys under the cursors, and takes two ends for the same.  All of this is one piece of data of
each cursor, its mark, so comparing is an equivalence, of whichever tables the cursors are.

In one table the mark tells the position, because no key is stored twice and because the key
under the cursor is always the one behind those passed, however the cursor has come to be there.
-/

/-- An item of a list without repetitions, or that there is none, tells the position in it. -/
theorem getElem?_inj_of_le {β : Type} {items : List β} (distinct : items.Nodup) {first second : Nat}
    (firstWithin : first ≤ items.length) (secondWithin : second ≤ items.length) :
    items[first]? = items[second]? ↔ first = second := by
  rcases Nat.lt_or_eq_of_le firstWithin with inside | rfl
  · exact List.getElem?_inj inside distinct
  · rw [List.getElem?_length, eq_comm, List.getElem?_eq_none_iff]
    omega

variable {α : Type}

namespace Walk

/-- What a comparison of positions looks at: the strategy, and the stored key under the cursor
with the table in which it is stored.  The empty key is stored nowhere. -/
def mark (walk : Walk α) : Strategy × Option (String × Option Nat) :=
  (walk.strategy, walk.key?.map fun key =>
    (key, if key.isEmpty then none else some walk.owner))

theorem same_iff (left right : Walk α) : left.same right = true ↔ left.mark = right.mark := by
  simp only [same, mark, Bool.and_eq_true, beq_iff_eq, Prod.mk.injEq]
  refine and_congr_right fun _ => ?_
  cases left.key? with
  | none => cases right.key? <;> simp
  | some leftKey =>
      cases right.key? with
      | none => simp
      | some rightKey =>
          simp only [Option.map_some, Option.some.injEq, Prod.mk.injEq, Bool.and_eq_true,
            Bool.or_eq_true, beq_iff_eq]
          refine and_congr_right ?_
          rintro rfl
          cases leftKey.isEmpty <;> simp

/-- In one table it is the stored keys that are compared. -/
theorem mark_eq_iff {left right : Walk α} (sameOwner : left.owner = right.owner)
    (sameStrategy : left.strategy = right.strategy) :
    left.mark = right.mark ↔ left.key? = right.key? := by
  have key?_of_mark (walk : Walk α) : walk.key? = walk.mark.2.map (·.1) := by
    rw [mark, Option.map_map]
    exact Option.map_id_apply.symm
  constructor
  · intro sameMark
    rw [key?_of_mark left, key?_of_mark right, sameMark]
  · intro sameKey
    rw [mark, mark, sameOwner, sameStrategy, sameKey]

/-- The key under the cursor is the one stored behind those passed. -/
theorem key?_eq (walk : Walk α) :
    walk.key? = (walk.table.slots.map (·.key))[walk.passed.length]? := by
  rw [key?, front_eq, List.getElem?_map]

/-- Each slot was passed or is ahead. -/
theorem length_passed_add_length_ahead (walk : Walk α) :
    walk.passed.length + walk.ahead.length = walk.table.slots.length := by
  rw [table, List.length_append, List.length_reverse]

/-- In a table that stores no key twice, two positions are the same exactly if equally many
slots are ahead of them. -/
theorem same_iff_length_ahead {left right : Walk α} (sameOwner : left.owner = right.owner)
    (sameTable : left.table = right.table) (distinct : (left.table.slots.map (·.key)).Nodup) :
    left.same right = true ↔ left.ahead.length = right.ahead.length := by
  have leftCount := left.length_passed_add_length_ahead
  have rightCount := right.length_passed_add_length_ahead
  rw [← sameTable] at rightCount
  have samePassed : left.key? = right.key? ↔ left.passed.length = right.passed.length := by
    rw [left.key?_eq, right.key?_eq, ← sameTable]
    refine getElem?_inj_of_le distinct ?_ ?_ <;> rw [List.length_map] <;> omega
  rw [same_iff, mark_eq_iff sameOwner (congrArg Table.strategy sameTable), samePassed]
  omega

theorem owner_forward (walk : Walk α) : walk.forward.owner = walk.owner := by
  rw [forward]
  cases walk.front with
  | none => rfl
  | some slot => exact owner_fetch ..

end Walk

namespace Cursor

/-- Two cursors are equal exactly if both are invalid or both have the same mark. -/
theorem same_iff (left right : Cursor α) :
    left.same right = true ↔ left.walk.map Walk.mark = right.walk.map Walk.mark := by
  rw [same]
  cases left.walk with
  | none => cases right.walk <;> simp
  | some leftWalk =>
      cases right.walk with
      | none => simp
      | some rightWalk =>
          rw [Option.map_some, Option.map_some, Option.some.injEq, ← Walk.same_iff]

/-- The cursors that one comes to by moving, in either way and as often as one likes.  A move that
fails leads nowhere else. -/
inductive Follows (start : Cursor α) : Cursor α → Prop where
  | start : Follows start start
  | advance {cursor further : Cursor α} (before : Follows start cursor)
      (moves : cursor.advance = .ok further) : Follows start further
  | next {cursor : Cursor α} (before : Follows start cursor) : Follows start cursor.next.2

theorem eq_moved_of_advance {cursor further : Cursor α} (moves : cursor.advance = .ok further) :
    further = cursor.moved Walk.forward := by
  rw [advance] at moves
  split at moves
  · cases moves
  · exact (Except.ok.inj moves).symm

/-- Moving leads to no other table, and to none that is equal but somewhere else. -/
theorem Follows.walk {table : Table α} {access : Access} {owner : Nat} {cursor : Cursor α}
    (follows : Follows (table.cursor access owner) cursor) :
    ∃ walk, cursor.walk = some walk ∧ walk.owner = owner ∧ walk.table = table := by
  have forward {cursor : Cursor α}
      (onTable : ∃ walk, cursor.walk = some walk ∧ walk.owner = owner ∧ walk.table = table) :
      ∃ walk, (cursor.moved Walk.forward).walk = some walk ∧
        walk.owner = owner ∧ walk.table = table := by
    obtain ⟨walk, here, itsOwner, itsTable⟩ := onTable
    exact ⟨walk.forward, walk_moved here _, walk.owner_forward.trans itsOwner,
      walk.table_forward.trans itsTable⟩
  induction follows with
  | start => exact ⟨_, rfl, Walk.owner_fetch .., Walk.table_fetch ..⟩
  | advance _ moves ih => exact eq_moved_of_advance moves ▸ forward ih
  | next _ ih => exact forward ih

theorem Follows.same_iff_length_ahead {table : Table α}
    (distinct : (table.slots.map (·.key)).Nodup) {access : Access} {owner : Nat}
    {left right : Cursor α} (leftFollows : Follows (table.cursor access owner) left)
    (rightFollows : Follows (table.cursor access owner) right) :
    left.same right = true ↔ left.ahead.length = right.ahead.length := by
  obtain ⟨leftWalk, leftHere, leftOwner, leftTable⟩ := leftFollows.walk
  obtain ⟨rightWalk, rightHere, rightOwner, rightTable⟩ := rightFollows.walk
  rw [same, ahead, ahead, leftHere, rightHere]
  simp only [List.length_map]
  exact Walk.same_iff_length_ahead (leftOwner.trans rightOwner.symm)
    (leftTable.trans rightTable.symm) (leftTable ▸ distinct)

/-- Cursors over one table that can be reached are equal exactly if equally many entries are left
to them, however they were moved.  Cursors over tables of different strategies never are, nor is a
valid one and an invalid one, and all invalid ones are equal.  Over all tables, to be equal is
reflexive, symmetric and transitive. -/
theorem same_iff_same_position :
    (∀ (strategy : Strategy) (past : List KeyEvent) (table : Table Value),
      Table.Reached strategy past table → ∀ (owner : Nat) (left right : Cursor Value),
        Follows (table.cursor .readOnly owner) left →
          Follows (table.cursor .readOnly owner) right →
            (left.same right = true ↔ left.ahead.length = right.ahead.length)) ∧
      (∀ left right : Cursor Value, left.strategy? ≠ right.strategy? →
        left.same right = false) ∧
      (∀ left right : Cursor Value, left.isValid = false →
        (left.same right = true ↔ right.isValid = false)) ∧
      (∀ cursor : Cursor Value, cursor.same cursor = true) ∧
      (∀ left right : Cursor Value, left.same right = right.same left) ∧
      ∀ first second third : Cursor Value, first.same second = true →
        second.same third = true → first.same third = true := by
  refine ⟨?_, ?_, ?_, ?_, ?_, ?_⟩
  · intro strategy past table reached owner left right
    exact Follows.same_iff_length_ahead reached.recorded.wellFiled.distinct_keys
  · intro left right otherStrategy
    have strategy?_of_mark (cursor : Cursor Value) :
        cursor.strategy? = (cursor.walk.map Walk.mark).map (·.1) := by
      rw [Option.map_map]
      rfl
    rw [Bool.eq_false_iff, ne_eq, same_iff]
    intro sameMark
    exact otherStrategy (by rw [strategy?_of_mark, strategy?_of_mark, sameMark])
  · intro left right invalid
    rw [isValid, Option.isSome_eq_false_iff, Option.isNone_iff_eq_none] at invalid ⊢
    rw [same_iff, invalid, Option.map_none, eq_comm, Option.map_eq_none_iff]
  · intro cursor
    exact (same_iff cursor cursor).mpr rfl
  · intro left right
    rw [Bool.eq_iff_iff, same_iff, same_iff, eq_comm]
  · intro first second third
    rw [same_iff, same_iff, same_iff]
    exact Eq.trans

/-- Two cursors that have moved once, one in each way, are at the same position; a third that has
not moved is at another one. -/
theorem same_position_by_either_move :
    let table := (Table.run [.insert "Foo" (.integer 1), .assign "BAR" (.integer 2),
      .insert "foo" (.integer 3)] (.empty .hashedCaseInsensitive)).2
    let start := table.cursor .readOnly 0
    let left := start.moved Walk.forward
    let right := start.next.2
    Table.Reached .hashedCaseInsensitive [.files "Foo", .files "BAR", .files "foo"] table ∧
      start.advance = .ok left ∧ left.same right = true ∧ start.same right = false ∧
      start.same (.invalid .readOnly) = false := by
  intro table start left right
  have reached : Table.Reached .hashedCaseInsensitive
      [.files "Foo", .files "BAR", .files "foo"] table :=
    ((Table.Reached.new.operated (.insert "Foo" (.integer 1))).operated
      (.assign "BAR" (.integer 2))).operated (.insert "foo" (.integer 3))
  have moves : start.advance = .ok left := rfl
  obtain ⟨samePosition, otherStrategy, _⟩ := same_iff_same_position
  have onTable := samePosition _ _ table reached 0
  have leftFollows : Follows start left := .advance .start moves
  have rightFollows : Follows start right := .next .start
  refine ⟨reached, moves, (onTable left right leftFollows rightFollows).mpr rfl, ?_,
    otherStrategy start (.invalid .readOnly) (by decide)⟩
  rw [Bool.eq_false_iff, ne_eq, onTable start right .start rightFollows]
  decide

end Cursor

end ConfTree
