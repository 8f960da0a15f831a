/-
Module: ConfTree.Proofs.Value.Equality
Purpose: A value equals itself unless there is a real in it that is not a number.
Main exports:
  Value.NaNFree, Value.equal_self
-/
import ConfTree.Proofs.Value.Shape
import ConfTree.Value.Equality

namespace ConfTree

/-!
Equality goes down both values at once and comes to reals, where what is not a number
differs even from itself.  A table that is not ordered is compared by looking up each
class of the first in the second, so for a table to equal itself a look-up has to find
the very slot whose class is looked up.
-/

theorem Binary64.equal_self {number : Binary64} (isNumber : number.isNaN = false) :
    number.equal number := by
  simp [equal, isNumber]

namespace Value

/-- No real in the value is not a number. -/
def NaNFree (value : Value) : Prop :=
  value.Everywhere fun part => ∀ number, part = .real number → number.isNaN = false

theorem RealFree.nanFree {value : Value} (realFree : value.RealFree) : value.NaNFree := by
  rintro part isPart number rfl
  exact absurd rfl (realFree _ isPart)

theorem equalItems_self {items : List Value} (each : ∀ item ∈ items, item.equal item) :
    equalItems items items := by
  induction items with
  | nil => simp [equalItems]
  | cons item rest ih =>
      obtain ⟨first, following⟩ := List.forall_mem_cons.mp each
      rw [equalItems, first, ih following]
      rfl

theorem equalSlots_self {slots : List (Slot Value)}
    (each : ∀ slot ∈ slots, slot.value.equal slot.value) : equalSlots slots slots := by
  induction slots with
  | nil => simp [equalSlots]
  | cons slot rest ih =>
      obtain ⟨first, following⟩ := List.forall_mem_cons.mp each
      rw [equalSlots, first, ih following]
      simp

theorem slotsWithin_self {slots : List (Slot Value)} {table : Table Value}
    (found : ∀ slot ∈ slots, table.slot? slot.filed = some slot)
    (each : ∀ slot ∈ slots, slot.value.equal slot.value) : slotsWithin slots table := by
  induction slots with
  | nil => simp [slotsWithin]
  | cons slot rest ih =>
      obtain ⟨first, following⟩ := List.forall_mem_cons.mp each
      obtain ⟨foundFirst, foundFollowing⟩ := List.forall_mem_cons.mp found
      rw [slotsWithin, foundFirst, ih foundFollowing following]
      simpa using first

/-- A value without what is not a number equals itself. -/
theorem equal_self {value : Value} (wellFiled : value.WellFiled) (nanFree : value.NaNFree) :
    value.equal value := by
  induction value with
  | text content => simp [equal]
  | real number =>
      rw [equal]
      exact Binary64.equal_self (nanFree.self number rfl)
  | integer number => simp [equal]
  | boolean truth => simp [equal]
  | boxed inner ih =>
      rw [equal]
      exact ih wellFiled.inner nanFree.inner
  | sequence items ih =>
      rw [equal]
      apply equalItems_self
      intro item member
      exact ih item member (wellFiled.item member) (nanFree.item member)
  | map table ih =>
      have tableFiled : table.WellFiled := wellFiled.self table rfl
      have each : ∀ slot ∈ table.slots, slot.value.equal slot.value := by
        intro slot member
        exact ih slot member (wellFiled.entry member) (nanFree.entry member)
      have found : ∀ slot ∈ table.slots, table.slot? slot.filed = some slot := fun slot member =>
        (Table.slot?_eq_some_iff tableFiled.distinct).mpr ⟨member, rfl⟩
      obtain ⟨strategy, slots⟩ := table
      cases strategy with
      | ordered => simp [equal, equalSlots_self each]
      | hashed => simp [equal, slotsWithin_self found each]
      | hashedCaseInsensitive => simp [equal, slotsWithin_self found each]

end Value

end ConfTree
