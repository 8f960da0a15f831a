/-
Module: ConfTree.Proofs.Value.Shape
Purpose: The parts of a value, induction over them, and a value without its boxes.
Main exports:
  Value.induction, Value.Part, Value.Everywhere, Value.RealFree, Value.FiledBy,
  Value.WellFiled, Value.stripped
-/
import ConfTree.Proofs.Table.Filing
import ConfTree.Value.Basic

namespace ConfTree

/-!
A value sits in another one directly, in a box, as an item of a sequence or under a key
of a table, and so on inwards.  What is said of a value "at any depth" is said of each
of its parts, the value itself among them.

The type of values lets a table hold any slots.  The tables of a program are well filed,
and so are those in its values: that is `Value.WellFiled`.
-/

namespace Value

theorem sizeOf_item_lt {items : List Value} {item : Value} (member : item ∈ items) :
    sizeOf item < sizeOf (sequence items) := by
  have smaller := List.sizeOf_lt_of_mem member
  simp only [sequence.sizeOf_spec]
  omega

theorem sizeOf_slot_lt {strategy : Strategy} {slots : List (Slot Value)} {slot : Slot Value}
    (member : slot ∈ slots) : sizeOf slot.value < sizeOf (map ⟨strategy, slots⟩) := by
  have smaller := List.sizeOf_lt_of_mem member
  cases slot
  simp only [Slot.mk.sizeOf_spec, map.sizeOf_spec, Table.mk.sizeOf_spec] at smaller ⊢
  omega

/-- Induction over the parts of a value. -/
@[induction_eliminator]
theorem induction {motive : Value → Prop}
    (text : ∀ content, motive (.text content))
    (real : ∀ number, motive (.real number))
    (integer : ∀ number, motive (.integer number))
    (boolean : ∀ truth, motive (.boolean truth))
    (boxed : ∀ inner, motive inner → motive (.boxed inner))
    (sequence : ∀ items, (∀ item ∈ items, motive item) → motive (.sequence items))
    (map : ∀ table : Table Value, (∀ slot ∈ table.slots, motive slot.value) →
      motive (.map table)) :
    ∀ value, motive value
  | .text content => text content
  | .real number => real number
  | .integer number => integer number
  | .boolean truth => boolean truth
  | .boxed inner =>
      boxed inner (induction text real integer boolean boxed sequence map inner)
  | .sequence items => sequence items fun item _ =>
      induction text real integer boolean boxed sequence map item
  | .map ⟨strategy, slots⟩ => map ⟨strategy, slots⟩ fun slot _ =>
      induction text real integer boolean boxed sequence map slot.value
termination_by value => sizeOf value
decreasing_by
  · simp_wf
  · exact sizeOf_item_lt ‹_›
  · exact sizeOf_slot_lt ‹_›

/-! ### Parts -/

/-- The first value sits in the second one at some depth, or is that value. -/
inductive Part : Value → Value → Prop
  | whole (value : Value) : Part value value
  | boxed {part inner : Value} : Part part inner → Part part (.boxed inner)
  | item {part item : Value} {items : List Value} (member : item ∈ items) :
      Part part item → Part part (.sequence items)
  | entry {part : Value} {slot : Slot Value} {table : Table Value}
      (member : slot ∈ table.slots) : Part part slot.value → Part part (.map table)

theorem Part.trans {first second third : Value} (inside : Part first second)
    (further : Part second third) : Part first third := by
  induction further with
  | whole => exact inside
  | boxed _ ih => exact .boxed ih
  | item member _ ih => exact .item member ih
  | entry member _ ih => exact .entry member ih

/-- A scalar has no parts but itself. -/
theorem eq_of_part_scalar {part value : Value} (scalar : value.isScalar)
    (isPart : Part part value) : part = value := by
  cases isPart with
  | whole => rfl
  | boxed => cases scalar
  | item => cases scalar
  | entry => cases scalar

/-- All parts of the value have the property. -/
def Everywhere (property : Value → Prop) (value : Value) : Prop :=
  ∀ part, Part part value → property part

namespace Everywhere

variable {property : Value → Prop}

theorem self {value : Value} (all : value.Everywhere property) : property value :=
  all value (.whole value)

theorem part {value inside : Value} (all : value.Everywhere property)
    (isPart : Part inside value) : inside.Everywhere property :=
  fun further isFurther => all further (isFurther.trans isPart)

theorem inner {inner : Value} (all : (boxed inner).Everywhere property) :
    inner.Everywhere property :=
  fun part isPart => all part (.boxed isPart)

theorem item {items : List Value} (all : (sequence items).Everywhere property) {item : Value}
    (member : item ∈ items) : item.Everywhere property :=
  fun part isPart => all part (.item member isPart)

theorem entry {table : Table Value} (all : (map table).Everywhere property)
    {slot : Slot Value} (member : slot ∈ table.slots) : slot.value.Everywhere property :=
  fun part isPart => all part (.entry member isPart)

theorem of_scalar {value : Value} (scalar : value.isScalar) (holds : property value) :
    value.Everywhere property := by
  intro part isPart
  rwa [eq_of_part_scalar scalar isPart]

theorem of_boxed {inner : Value} (holds : property (boxed inner))
    (inside : inner.Everywhere property) : (boxed inner).Everywhere property := by
  intro part isPart
  cases isPart with
  | whole => exact holds
  | boxed isPart => exact inside part isPart

theorem of_sequence {items : List Value} (holds : property (sequence items))
    (inside : ∀ item ∈ items, item.Everywhere property) :
    (sequence items).Everywhere property := by
  intro part isPart
  cases isPart with
  | whole => exact holds
  | item member isPart => exact inside _ member part isPart

theorem of_map {table : Table Value} (holds : property (map table))
    (inside : ∀ slot ∈ table.slots, slot.value.Everywhere property) :
    (map table).Everywhere property := by
  intro part isPart
  cases isPart with
  | whole => exact holds
  | entry member isPart => exact inside _ member part isPart

end Everywhere

/-- No part of the value is a real. -/
def RealFree (value : Value) : Prop := value.Everywhere fun part => part.kind ≠ .real

/-- All tables in the value have that strategy. -/
def FiledBy (strategy : Strategy) (value : Value) : Prop :=
  value.Everywhere fun part => ∀ table, part = .map table → table.strategy = strategy

/-- All tables in the value are well filed. -/
def WellFiled (value : Value) : Prop :=
  value.Everywhere fun part => ∀ table, part = .map table → table.WellFiled

/-! ### Without boxes -/

/-- The value without the boxes in it, at any depth. -/
def stripped : Value → Value
  | .boxed inner => inner.stripped
  | .sequence items => .sequence (items.map fun item => item.stripped)
  | .map ⟨strategy, slots⟩ =>
      .map ⟨strategy, slots.map fun slot => { slot with value := slot.value.stripped }⟩
  | .text content => .text content
  | .real number => .real number
  | .integer number => .integer number
  | .boolean truth => .boolean truth
termination_by value => sizeOf value
decreasing_by
  · simp_wf
  · exact sizeOf_item_lt ‹_›
  · exact sizeOf_slot_lt ‹_›

theorem stripped_map (table : Table Value) :
    (map table).stripped = .map (table.mapValues stripped) := by
  cases table
  rw [stripped]
  rfl

theorem stripped_scalar {value : Value} (scalar : value.isScalar) :
    value.stripped = value := by
  cases value with
  | boxed => cases scalar
  | sequence => cases scalar
  | map => cases scalar
  | _ => rw [stripped]

theorem kind_stripped {value : Value} (notBoxed : value.kind ≠ .boxed) :
    value.stripped.kind = value.kind := by
  cases value with
  | boxed inner => exact absurd rfl notBoxed
  | sequence items => rw [stripped, kind, kind]
  | map table => rw [stripped_map, kind, kind]
  | _ => rw [stripped]

theorem part_stripped_scalar {part value : Value} (scalar : value.isScalar)
    (isPart : Part part value.stripped) :
    ∃ source, Part source value ∧ source.kind ≠ .boxed ∧ source.stripped = part := by
  rw [stripped_scalar scalar] at isPart
  rw [eq_of_part_scalar scalar isPart]
  refine ⟨value, .whole _, ?_, stripped_scalar scalar⟩
  intro boxed
  cases value with
  | boxed => cases scalar
  | _ => cases boxed

/-- Nothing comes up in a value without boxes but its parts that are no boxes. -/
theorem part_stripped {part value : Value} (isPart : Part part value.stripped) :
    ∃ source, Part source value ∧ source.kind ≠ .boxed ∧ source.stripped = part := by
  induction value generalizing part with
  | text content => exact part_stripped_scalar rfl isPart
  | real number => exact part_stripped_scalar rfl isPart
  | integer number => exact part_stripped_scalar rfl isPart
  | boolean truth => exact part_stripped_scalar rfl isPart
  | boxed inner ih =>
      rw [stripped] at isPart
      obtain ⟨source, inside, notBoxed, same⟩ := ih isPart
      exact ⟨source, .boxed inside, notBoxed, same⟩
  | sequence items ih =>
      rw [stripped] at isPart
      cases isPart with
      | whole => exact ⟨.sequence items, .whole _, nofun, by rw [stripped]⟩
      | item member isPart =>
          obtain ⟨item, isItem, rfl⟩ := List.mem_map.mp member
          obtain ⟨source, inside, notBoxed, same⟩ := ih item isItem isPart
          exact ⟨source, .item isItem inside, notBoxed, same⟩
  | map table ih =>
      rw [stripped_map] at isPart
      cases isPart with
      | whole => exact ⟨.map table, .whole _, nofun, stripped_map table⟩
      | entry member isPart =>
          obtain ⟨slot, isSlot, rfl⟩ := List.mem_map.mp member
          obtain ⟨source, inside, notBoxed, same⟩ := ih slot isSlot isPart
          exact ⟨source, .entry isSlot inside, notBoxed, same⟩

theorem RealFree.stripped {value : Value} (realFree : value.RealFree) :
    value.stripped.RealFree := by
  intro part isPart
  obtain ⟨source, inside, notBoxed, rfl⟩ := part_stripped isPart
  rw [kind_stripped notBoxed]
  exact realFree source inside

theorem WellFiled.stripped {value : Value} (wellFiled : value.WellFiled) :
    value.stripped.WellFiled := by
  rintro part isPart table rfl
  obtain ⟨source, inside, notBoxed, same⟩ := part_stripped isPart
  have isMap : source.kind = .map := by rw [← kind_stripped notBoxed, same, kind]
  cases source with
  | map sourceTable =>
      rw [stripped_map] at same
      cases same
      exact (wellFiled _ inside sourceTable rfl).of_sameKeys (.mapValues sourceTable _)
  | _ => cases isMap

end Value

end ConfTree
