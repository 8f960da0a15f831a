/-
Module: ConfTree.Proofs.Json.Shape
Purpose: The parts of a document, induction over them, and the first null among them.
Main exports:
  Json.induction, Json.Part, Json.NullFree, Json.DotlessKeys, Json.FirstNull,
  Json.exists_firstNull, Json.FirstNull.unique
-/
import ConfTree.Proofs.Json.Layout

namespace ConfTree.Json

/-!
A document holds other documents as items of arrays and as values of members.  To go
through it in document order is to take the items of an array by their index and the
members of an object one after the other, each with everything in it before the next.
The first null in that order is a relation here: it tells where the null stands and that
there is none before it, and says nothing of how one would look for it.
-/

/-- Induction over the parts of a document. -/
@[induction_eliminator]
theorem induction {motive : Json → Prop}
    (null : motive .null)
    (boolean : ∀ value, motive (.boolean value))
    (integer : ∀ value, motive (.integer value))
    (real : ∀ value, motive (.real value))
    (string : ∀ value, motive (.string value))
    (array : ∀ items : List Json, (∀ item ∈ items, motive item) → motive (.array items))
    (object : ∀ members : List (String × Json), (∀ member ∈ members, motive member.2) →
      motive (.object members)) :
    ∀ json, motive json
  | .null => null
  | .boolean value => boolean value
  | .integer value => integer value
  | .real value => real value
  | .string value => string value
  | .array items => array items fun item _ =>
      induction null boolean integer real string array object item
  | .object members => object members fun member _ =>
      induction null boolean integer real string array object member.2
termination_by json => sizeOf json
decreasing_by
  · exact sizeOf_item_lt ‹_›
  · exact sizeOf_member_lt ‹_›

/-! ### Parts -/

/-- The first document stands in the second one at some depth, or is that document. -/
inductive Part : Json → Json → Prop
  | whole (json : Json) : Part json json
  | item {part item : Json} {items : List Json} (member : item ∈ items) :
      Part part item → Part part (.array items)
  | member {part : Json} {member : String × Json} {members : List (String × Json)}
      (isMember : member ∈ members) : Part part member.2 → Part part (.object members)

theorem Part.trans {first second third : Json} (inside : Part first second)
    (further : Part second third) : Part first third := by
  induction further with
  | whole => exact inside
  | item member _ ih => exact .item member ih
  | member isMember _ ih => exact .member isMember ih

/-- There is no null in the document. -/
def NullFree (json : Json) : Prop := ¬ Part .null json

/-- No object in the document has a key with a dot in it. -/
def DotlessKeys (json : Json) : Prop :=
  ∀ members, Part (.object members) json → ∀ member ∈ members, '.' ∉ member.1.toList

theorem not_nullFree_null : ¬ NullFree .null := fun nullFree => nullFree (.whole .null)

theorem NullFree.item {items : List Json} (nullFree : NullFree (.array items)) {item : Json}
    (member : item ∈ items) : item.NullFree :=
  fun isPart => nullFree (.item member isPart)

theorem NullFree.member {members : List (String × Json)} (nullFree : NullFree (.object members))
    {member : String × Json} (isMember : member ∈ members) : member.2.NullFree :=
  fun isPart => nullFree (.member isMember isPart)

theorem dotlessKeys_of_scalar {json : Json} (notObject : ∀ members, ¬ Part (.object members) json) :
    json.DotlessKeys :=
  fun members isPart => absurd isPart (notObject members)

theorem dotlessKeys_array {items : List Json} :
    DotlessKeys (.array items) ↔ ∀ item ∈ items, item.DotlessKeys := by
  constructor
  · intro dotless item member members isPart
    exact dotless members (.item member isPart)
  · intro each members isPart
    cases isPart with
    | item member inside => exact each _ member members inside

theorem dotlessKeys_object {members : List (String × Json)} :
    DotlessKeys (.object members) ↔
      ∀ member ∈ members, '.' ∉ member.1.toList ∧ member.2.DotlessKeys := by
  constructor
  · intro dotless member isMember
    refine ⟨dotless members (.whole _) member isMember, ?_⟩
    intro others isPart
    exact dotless others (.member isMember isPart)
  · intro each others isPart
    cases isPart with
    | whole => exact fun member isMember => (each member isMember).1
    | member isMember inside => exact (each _ isMember).2 others inside

/-! ### The first null -/

/-- The keys and indices that lead from a document to its first null in document order. -/
inductive FirstNull : Json → List String → Prop
  | here : FirstNull .null []
  | item {before after : List Json} {item : Json} {place : List String}
      (noneBefore : ∀ earlier ∈ before, NullFree earlier) (inside : FirstNull item place) :
      FirstNull (.array (before ++ item :: after)) (toString before.length :: place)
  | member {before after : List (String × Json)} {name : String} {value : Json}
      {place : List String} (noneBefore : ∀ earlier ∈ before, NullFree earlier.2)
      (inside : FirstNull value place) :
      FirstNull (.object (before ++ (name, value) :: after)) (name :: place)

theorem FirstNull.part {json : Json} {place : List String} (first : json.FirstNull place) :
    Part .null json := by
  induction first with
  | here => exact .whole .null
  | item _ _ ih => exact .item (List.mem_append_right _ List.mem_cons_self) ih
  | @member before after name value _ _ _ ih =>
      have isMember : (name, value) ∈ before ++ (name, value) :: after :=
        List.mem_append_right before List.mem_cons_self
      exact .member isMember ih

theorem FirstNull.ne_nil {json : Json} {place : List String} (first : json.FirstNull place)
    (notNull : json ≠ .null) : place ≠ [] := by
  rintro rfl
  cases first
  exact notNull rfl

/-- The first of some things in a list that have a property. -/
theorem exists_first {α : Type} {property : α → Prop} {list : List α}
    (some : ∃ x ∈ list, property x) :
    ∃ before x after, list = before ++ x :: after ∧ property x ∧
      ∀ y ∈ before, ¬ property y := by
  induction list with
  | nil =>
      rcases some with ⟨x, member, _⟩
      cases member
  | cons head rest ih =>
      by_cases holds : property head
      · exact ⟨[], head, rest, rfl, holds, List.forall_mem_nil _⟩
      · rcases some with ⟨x, member, holdsX⟩
        rcases List.mem_cons.mp member with rfl | inRest
        · exact absurd holdsX holds
        · obtain ⟨before, y, after, rfl, holdsY, noneBefore⟩ := ih ⟨x, inRest, holdsX⟩
          exact ⟨head :: before, y, after, rfl, holdsY,
            List.forall_mem_cons.mpr ⟨holds, noneBefore⟩⟩

/-- There is but one way to part a list at the first thing that has a property. -/
theorem first_unique {α : Type} {property : α → Prop} {before before' after after' : List α}
    {x x' : α} (same : before ++ x :: after = before' ++ x' :: after') (holds : property x)
    (holds' : property x') (noneBefore : ∀ y ∈ before, ¬ property y)
    (noneBefore' : ∀ y ∈ before', ¬ property y) : before = before' ∧ x = x' := by
  induction before generalizing before' with
  | nil =>
      cases before' with
      | nil => exact ⟨rfl, (List.cons.inj same).1⟩
      | cons y rest =>
          rw [(List.cons.inj same).1] at holds
          exact absurd holds (noneBefore' y List.mem_cons_self)
  | cons y rest ih =>
      cases before' with
      | nil =>
          rw [← (List.cons.inj same).1] at holds'
          exact absurd holds' (noneBefore y List.mem_cons_self)
      | cons y' rest' =>
          obtain ⟨rfl, sameRest⟩ := List.cons.inj same
          obtain ⟨rfl, rfl⟩ := ih sameRest (List.forall_mem_cons.mp noneBefore).2
            (List.forall_mem_cons.mp noneBefore').2
          exact ⟨rfl, rfl⟩

/-- A document with a null in it has a first one. -/
theorem exists_firstNull {json : Json} (hasNull : Part .null json) :
    ∃ place, json.FirstNull place := by
  induction json with
  | null => exact ⟨[], .here⟩
  | array items ih =>
      cases hasNull with
      | item member isPart =>
          obtain ⟨before, item, after, rfl, holds, noneBefore⟩ :=
            exists_first ⟨_, member, isPart⟩
          obtain ⟨place, inside⟩ := ih item (by simp) holds
          exact ⟨_, .item noneBefore inside⟩
  | object members ih =>
      cases hasNull with
      | member isMember isPart =>
          let hasNull (member : String × Json) : Prop := Part .null member.2
          have some : ∃ member ∈ members, hasNull member := ⟨_, isMember, isPart⟩
          obtain ⟨before, ⟨name, value⟩, after, rfl, holds, noneBefore⟩ := exists_first some
          obtain ⟨place, inside⟩ := ih (name, value) (by simp) holds
          exact ⟨_, .member noneBefore inside⟩
  | boolean | integer | real | string => cases hasNull

/-- A document has no more than one first null. -/
theorem FirstNull.unique {json : Json} {place other : List String}
    (first : json.FirstNull place) (second : json.FirstNull other) : place = other := by
  induction first generalizing other with
  | here => cases second; rfl
  | @item before after item place noneBefore inside ih =>
      generalize whole : before ++ item :: after = items at second
      cases second with
      | item noneBefore' inside' =>
          obtain ⟨rfl, rfl⟩ := first_unique whole inside.part inside'.part noneBefore noneBefore'
          rw [ih inside']
  | @member before after name value place noneBefore inside ih =>
      generalize whole : before ++ (name, value) :: after = members at second
      cases second with
      | member noneBefore' inside' =>
          let hasNull (member : String × Json) : Prop := Part .null member.2
          have holds : hasNull (name, value) := inside.part
          obtain ⟨rfl, ⟨⟩⟩ := first_unique whole holds inside'.part noneBefore noneBefore'
          rw [ih inside']

end ConfTree.Json
