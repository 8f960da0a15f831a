/-
Module: ConfTree.Proofs.Table.Equality
Purpose: Tables are equal exactly if they are filed alike and their dictionaries are alike.
Main exports:
  Value.Equals, Dictionary.Alike, Value.equalItems_iff, Value.equalSlots_iff,
  Value.slotsWithin_iff, Table.equal_iff
-/
import ConfTree.Proofs.Table.Refinement
import ConfTree.Value.Equality
import Mathlib.Data.List.Sort

namespace ConfTree

/-!
Tables are compared in two ways, slot by slot where keys are kept in order and by look-ups
elsewhere, and neither looks at how a key was spelled.  For tables that are well filed both
come to the same: the tables have the same strategy, the same key classes, and equal values
under each class.  That is a relation between their dictionaries, and whatever can be told
from dictionaries respects it.
-/

/-- The values are equal. -/
abbrev Value.Equals (value other : Value) : Prop := value.equal other = true

/-- Two dictionaries have the same classes, and equal values under each of them. -/
def Dictionary.Alike (first second : Dictionary) : Prop :=
  ∀ filed, Option.Rel Value.Equals (first.lookup filed) (second.lookup filed)

/-! ### Lists of values and of slots -/

namespace Value

theorem equalItems_iff {items others : List Value} :
    equalItems items others ↔ List.Forall₂ Equals items others := by
  induction items generalizing others with
  | nil => cases others <;> simp [equalItems]
  | cons item rest ih =>
      cases others with
      | nil => simp [equalItems]
      | cons other others => simp [equalItems, ih]

/-- The slots are filed under the same class and hold equal values. -/
def SlotEquals (slot other : Slot Value) : Prop :=
  slot.filed = other.filed ∧ slot.value.Equals other.value

theorem equalSlots_iff {slots others : List (Slot Value)} :
    equalSlots slots others ↔ List.Forall₂ SlotEquals slots others := by
  induction slots generalizing others with
  | nil => cases others <;> simp [equalSlots]
  | cons slot rest ih =>
      obtain ⟨filed, key, value⟩ := slot
      cases others with
      | nil => simp [equalSlots]
      | cons other others => simp [equalSlots, SlotEquals, ih]

theorem slotsWithin_iff {slots : List (Slot Value)} {table : Table Value} :
    slotsWithin slots table ↔
      ∀ slot ∈ slots, ∃ counterpart, table.slot? slot.filed = some counterpart ∧
        slot.value.Equals counterpart.value := by
  induction slots with
  | nil => simp [slotsWithin]
  | cons slot rest ih =>
      obtain ⟨filed, key, value⟩ := slot
      cases found : table.slot? filed <;> simp [slotsWithin, found, ih]

end Value

/-! ### Dictionaries -/

namespace Dictionary.Alike

variable {first second : Dictionary}

theorem mem_iff (alike : first.Alike second) (filed : String) :
    filed ∈ first ↔ filed ∈ second := by
  have here := alike filed
  rw [← Finmap.lookup_isSome, ← Finmap.lookup_isSome]
  generalize first.lookup filed = value at here
  generalize second.lookup filed = other at here
  cases here <;> simp

theorem keys_eq (alike : first.Alike second) : first.keys = second.keys := by
  ext filed
  rw [Finmap.mem_keys, Finmap.mem_keys, alike.mem_iff]

end Dictionary.Alike

namespace Table

variable {first second : Table Value}

theorem lookup_contents_of_mem (wellFiled : first.WellFiled) {slot : Slot Value}
    (member : slot ∈ first.slots) : first.contents.lookup slot.filed = some slot.value := by
  have found := (slot?_eq_some_iff wellFiled.distinct).mpr ⟨member, rfl⟩
  simp [lookup_contents, found]

theorem mem_contents_iff {filed : String} :
    filed ∈ first.contents ↔ ∃ slot ∈ first.slots, slot.filed = filed := by
  rw [← Finmap.lookup_isSome, lookup_contents, Option.isSome_map, Option.isSome_iff_ne_none,
    ne_eq, slot?_eq_none_iff, not_not, List.mem_map]

/-! ### Tables in order -/

/-- Slots that are equal one by one make alike dictionaries. -/
theorem alike_of_forall₂ (equal : List.Forall₂ Value.SlotEquals first.slots second.slots) :
    first.contents.Alike second.contents := by
  intro filed
  simp only [lookup_contents, slot?]
  generalize first.slots = slots at equal ⊢
  generalize second.slots = others at equal ⊢
  induction equal with
  | nil => exact .none
  | @cons slot other _ _ here _ ih =>
      obtain ⟨sameClass, sameValue⟩ := here
      by_cases isHere : slot.filed = filed
      · simpa [isHere, ← sameClass] using sameValue
      · simpa [isHere, ← sameClass] using ih

/-- Tables in order with the same classes have them in the same order. -/
theorem map_filed_eq (wellFiled : first.WellFiled) (otherFiled : second.WellFiled)
    (ordered : first.strategy = .ordered) (alsoOrdered : second.strategy = .ordered)
    (alike : first.contents.Alike second.contents) :
    first.slots.map (·.filed) = second.slots.map (·.filed) := by
  have ascending := wellFiled.ascending ordered
  have alsoAscending := otherFiled.ascending alsoOrdered
  rw [← List.pairwise_map (f := fun slot : Slot Value => slot.filed)] at ascending alsoAscending
  apply ascending.eq_of_mem_iff alsoAscending
  intro filed
  have sameClasses := alike.mem_iff filed
  simpa only [mem_contents_iff, List.mem_map] using sameClasses

theorem forall₂_of_alike (wellFiled : first.WellFiled) (otherFiled : second.WellFiled)
    (ordered : first.strategy = .ordered) (alsoOrdered : second.strategy = .ordered)
    (alike : first.contents.Alike second.contents) :
    List.Forall₂ Value.SlotEquals first.slots second.slots := by
  have sameClasses : List.Forall₂ (fun slot other : Slot Value => slot.filed = other.filed)
      first.slots second.slots := by
    have same := map_filed_eq wellFiled otherFiled ordered alsoOrdered alike
    rwa [← List.forall₂_eq_eq_eq, List.forall₂_map_left_iff, List.forall₂_map_right_iff] at same
  rw [List.forall₂_iff_zip] at sameClasses ⊢
  refine ⟨sameClasses.1, ?_⟩
  intro slot other together
  obtain ⟨isSlot, isOther⟩ := List.of_mem_zip together
  have sameClass : slot.filed = other.filed := sameClasses.2 together
  have values := alike slot.filed
  rw [lookup_contents_of_mem wellFiled isSlot, sameClass,
    lookup_contents_of_mem otherFiled isOther] at values
  exact ⟨sameClass, Option.rel_some_some.mp values⟩

/-! ### Tables without order -/

/-- Tables of one size, the first of them within the second, are alike. -/
theorem alike_of_within (wellFiled : first.WellFiled) (otherFiled : second.WellFiled)
    (sameSize : first.size = second.size) (within : Value.slotsWithin first.slots second) :
    first.contents.Alike second.contents := by
  rw [Value.slotsWithin_iff] at within
  have subset : first.contents.keys ⊆ second.contents.keys := by
    intro filed
    rw [Finmap.mem_keys, Finmap.mem_keys, mem_contents_iff]
    rintro ⟨slot, isSlot, rfl⟩
    obtain ⟨counterpart, found, _⟩ := within slot isSlot
    exact mem_contents_iff.mpr ⟨counterpart, mem_of_slot? found, filed_of_slot? found⟩
  -- The sizes leave no room for a class that the first table does not have.
  have sameKeys : first.contents.keys = second.contents.keys := by
    apply Finset.eq_of_subset_of_card_le subset
    rw [← size_eq_card wellFiled, ← size_eq_card otherFiled, sameSize]
  intro filed
  by_cases present : filed ∈ first.contents
  · obtain ⟨slot, isSlot, rfl⟩ := mem_contents_iff.mp present
    obtain ⟨counterpart, found, equal⟩ := within slot isSlot
    rw [lookup_contents_of_mem wellFiled isSlot, lookup_contents, found]
    exact .some equal
  · have absent : filed ∉ second.contents := by
      rwa [← Finmap.mem_keys, ← sameKeys, Finmap.mem_keys]
    rw [Finmap.lookup_eq_none.mpr present, Finmap.lookup_eq_none.mpr absent]
    exact .none

theorem within_of_alike (wellFiled : first.WellFiled)
    (alike : first.contents.Alike second.contents) :
    Value.slotsWithin first.slots second := by
  rw [Value.slotsWithin_iff]
  intro slot isSlot
  have values := alike slot.filed
  rw [lookup_contents_of_mem wellFiled isSlot, lookup_contents] at values
  cases found : second.slot? slot.filed with
  | none => simp [found] at values
  | some counterpart => exact ⟨counterpart, rfl, by simpa [found] using values⟩

/-! ### Equality -/

/-- Two tables are equal exactly if they have the same strategy, the same key classes and equal
values under each class.  Neither the spelling of a key nor the order of the entries counts. -/
theorem equal_iff (wellFiled : first.WellFiled) (otherFiled : second.WellFiled) :
    first.equal second ↔
      first.strategy = second.strategy ∧ first.contents.Alike second.contents := by
  have sameSize : first.contents.Alike second.contents → first.size = second.size := by
    intro alike
    rw [size_eq_card wellFiled, size_eq_card otherFiled, alike.keys_eq]
  obtain ⟨strategy, slots⟩ := first
  obtain ⟨other, others⟩ := second
  cases strategy with
  | ordered =>
      simp only [equal, Value.equal, Bool.and_eq_true, beq_iff_eq, Value.equalSlots_iff]
      apply and_congr_right
      rintro rfl
      exact ⟨fun equal => alike_of_forall₂ equal, forall₂_of_alike wellFiled otherFiled rfl rfl⟩
  | hashed | hashedCaseInsensitive =>
      simp only [equal, Value.equal, Bool.and_eq_true, beq_iff_eq]
      apply and_congr_right
      rintro rfl
      constructor
      · rintro ⟨size, within⟩
        exact alike_of_within wellFiled otherFiled size within
      · intro alike
        exact ⟨sameSize alike, within_of_alike wellFiled alike⟩

end Table

end ConfTree
