/-
Module: ConfTree.Proofs.Value.Document
Purpose: What is true of every value that comes from a document.
Main exports:
  Value.Converts.unique, Value.converts_array, Value.converts_object,
  Value.Converts.everywhere, Value.Converts.filedBy, Value.Converts.wellFiled,
  Value.Converts.boxFree, Value.Converts.nanFree, Value.Converts.depth_le,
  Value.depth_le_of_part
-/
import ConfTree.Proofs.Json.Reading
import ConfTree.Proofs.Value.Members
import ConfTree.Proofs.Value.RoundTrip

namespace ConfTree.Value

/-!
A document settles its value, and the value has the shape of the document: a scalar for a
scalar, a sequence for an array, and for an object the table of its members.  So what is
wanted of all parts of such a value is wanted of scalars, of sequences and of tables that
have just been filed, and of nothing else.
-/

variable {strategy : Strategy} {json : Json} {value : Value}

/-! ### The value of a document -/

theorem Converts.ofJson (converts : Converts strategy json value) :
    ofJson strategy json = .ok value := converts ""

theorem Converts.unique {other : Value} (converts : Converts strategy json value)
    (alsoConverts : Converts strategy json other) : value = other :=
  Except.ok.inj (converts.ofJson.symm.trans alsoConverts.ofJson)

theorem Converts.nullFree (converts : Converts strategy json value) : json.NullFree := by
  intro hasNull
  obtain ⟨place, first⟩ := Json.exists_firstNull hasNull
  have refused := ofJson_firstNull strategy first
  rw [converts.ofJson] at refused
  cases refused

/-- The value of a scalar is a scalar, and does not depend on a strategy. -/
theorem Converts.scalar (converts : Converts strategy json value) (flat : json.depth = 0) :
    value.isScalar ∧ ∀ other, Converts other json value := by
  have known : ∃ known : Value, known.isScalar ∧ ∀ other, Converts other json known := by
    cases json with
    | null => exact absurd converts.nullFree Json.not_nullFree_null
    | boolean truth => exact ⟨.boolean truth, rfl, fun _ _ => by rw [convert]⟩
    | integer number =>
        refine ⟨ofWhole number, ?_, fun _ _ => by rw [convert]⟩
        rw [ofWhole]
        split <;> rfl
    | real number => exact ⟨.real number, rfl, fun _ _ => by rw [convert]⟩
    | string content => exact ⟨.text content, rfl, fun _ _ => by rw [convert]⟩
    | array items => simp [Json.depth] at flat
    | object members => simp [Json.depth] at flat
  obtain ⟨known, isScalar, alike⟩ := known
  rw [converts.unique (alike strategy)]
  exact ⟨isScalar, alike⟩

/-- The value of an array is the sequence of the values of its items. -/
theorem converts_array {items : List Json} (converts : Converts strategy (.array items) value) :
    ∃ values, value = .sequence values ∧ List.Forall₂ (Converts strategy) items values := by
  have nullFree := converts.nullFree
  obtain ⟨values, each⟩ := exists_forall₂_iff.mpr fun item member =>
    exists_converts strategy (nullFree.item member)
  have sequence : Converts strategy (.array items) (.sequence values) :=
    fun path => by rw [convert, convertItems_eq_ok each]
  exact ⟨values, converts.unique sequence, each⟩

/-- The value of an object is the table of the values of its members. -/
theorem converts_object {members : List (String × Json)}
    (converts : Converts strategy (.object members) value) :
    ∃ pairs, value = .map (Table.ofList strategy pairs) ∧
      Json.MembersRelated (Converts strategy) members pairs := by
  have nullFree := converts.nullFree
  obtain ⟨pairs, each⟩ := exists_pairs fun member isMember =>
    exists_converts strategy (nullFree.member isMember)
  have map : Converts strategy (.object members) (.map (Table.ofList strategy pairs)) :=
    fun path => by rw [convert, convertMembers_eq_ok each]
  exact ⟨pairs, converts.unique map, each⟩

/-! ### All parts of it -/

/-- What is true of the values of scalars, of sequences, and of tables as they are filed, is
true of all parts of the value of a document. -/
theorem Converts.everywhere {property : Value → Prop} (converts : Converts strategy json value)
    (scalar : ∀ source part, Json.Part source json → Converts strategy source part →
      part.isScalar → property part)
    (sequence : ∀ values, property (.sequence values))
    (map : ∀ pairs, property (.map (Table.ofList strategy pairs))) :
    value.Everywhere property := by
  induction json generalizing value with
  | array items ih =>
      obtain ⟨values, rfl, each⟩ := converts_array converts
      apply Everywhere.of_sequence (sequence values)
      intro found isFound
      obtain ⟨item, isItem, convertsItem⟩ := exists_of_mem_forall₂ each isFound
      apply ih item isItem convertsItem
      exact fun source part isPart => scalar source part (.item isItem isPart)
  | object members ih =>
      obtain ⟨pairs, rfl, each⟩ := converts_object converts
      apply Everywhere.of_map (map pairs)
      intro slot isSlot
      obtain ⟨pair, isPair, sameValue⟩ := Table.exists_pair_of_mem_ofList isSlot
      obtain ⟨member, isMember, _, convertsMember⟩ := exists_of_mem_forall₂ each isPair
      rw [← sameValue]
      apply ih member isMember convertsMember
      exact fun source part isPart => scalar source part (.member isMember isPart)
  | null | boolean | integer | real | string =>
      have isScalar := (converts.scalar (by simp [Json.depth])).1
      exact .of_scalar isScalar (scalar _ value (.whole _) converts isScalar)

theorem Converts.filedBy (converts : Converts strategy json value) : value.FiledBy strategy := by
  refine converts.everywhere ?scalar ?sequence ?map
  case scalar =>
    rintro _ _ _ _ isScalar table rfl
    cases isScalar
  case sequence => exact fun _ => nofun
  case map =>
    rintro pairs _ ⟨⟩
    exact Table.ofList_strategy strategy pairs

theorem Converts.wellFiled (converts : Converts strategy json value) : value.WellFiled := by
  refine converts.everywhere ?scalar ?sequence ?map
  case scalar =>
    rintro _ _ _ _ isScalar table rfl
    cases isScalar
  case sequence => exact fun _ => nofun
  case map =>
    rintro pairs _ ⟨⟩
    exact .ofList strategy pairs

/-- No document has a value with a box in it. -/
theorem Converts.boxFree (converts : Converts strategy json value) :
    value.Everywhere fun part => part.kind ≠ .boxed := by
  refine converts.everywhere ?scalar ?sequence ?map
  case scalar =>
    intro _ part _ _ isScalar
    cases part with
    | boxed => cases isScalar
    | _ => nofun
  case sequence => exact fun _ => nofun
  case map => exact fun _ => nofun

/-- A real is that of the document, or a whole number that is rounded for its size. -/
theorem converts_real {number : Binary64} (converts : Converts strategy json (.real number)) :
    json = .real number ∨ number.isNaN = false := by
  have converted := converts.ofJson
  rw [ofJson] at converted
  cases json with
  | integer whole =>
      rw [convert, ofWhole] at converted
      split at converted
      · cases converted
      · cases converted
        exact .inr (Binary64.isNaN_nearest _ _)
  | array items => obtain ⟨_, ⟨⟩, _⟩ := converts_array converts
  | object members => obtain ⟨_, ⟨⟩, _⟩ := converts_object converts
  | null | boolean | real | string =>
      rw [convert] at converted
      cases converted <;> exact .inl rfl

theorem Converts.nanFree (converts : Converts strategy json value) (numbers : json.NaNFree) :
    value.NaNFree := by
  refine converts.everywhere ?scalar ?sequence ?map
  case scalar =>
    rintro source part isPart convertsPart _ number rfl
    rcases converts_real convertsPart with rfl | isNumber
    · exact numbers number isPart
    · exact isNumber
  case sequence => exact fun _ => nofun
  case map => exact fun _ => nofun

/-! ### Depth -/

theorem depth_scalar {value : Value} (isScalar : value.isScalar) : value.depth = 0 := by
  cases value with
  | boxed | sequence | map => cases isScalar
  | _ => simp [depth]

theorem depth_map (table : Table Value) :
    (map table).depth = 1 + Json.deepest (table.slots.map fun slot => slot.value.depth) := by
  cases table
  rw [depth]

/-- A value is no deeper than its document. -/
theorem Converts.depth_le (converts : Converts strategy json value) :
    value.depth ≤ json.depth := by
  induction json generalizing value with
  | array items ih =>
      obtain ⟨values, rfl, each⟩ := converts_array converts
      rw [depth, Json.depth, Nat.add_le_add_iff_left, Json.deepest_le_iff, List.forall_mem_map]
      intro found isFound
      obtain ⟨item, isItem, convertsItem⟩ := exists_of_mem_forall₂ each isFound
      calc found.depth
          ≤ item.depth := ih item isItem convertsItem
        _ ≤ _ := Json.le_deepest (List.mem_map_of_mem isItem)
  | object members ih =>
      obtain ⟨pairs, rfl, each⟩ := converts_object converts
      rw [depth_map, Json.depth, Nat.add_le_add_iff_left, Json.deepest_le_iff,
        List.forall_mem_map]
      intro slot isSlot
      obtain ⟨pair, isPair, sameValue⟩ := Table.exists_pair_of_mem_ofList isSlot
      obtain ⟨member, isMember, _, convertsMember⟩ := exists_of_mem_forall₂ each isPair
      calc slot.value.depth
          = pair.2.depth := by rw [sameValue]
        _ ≤ member.2.depth := ih member isMember convertsMember
        _ ≤ _ := Json.le_deepest (List.mem_map.mpr ⟨member, isMember, rfl⟩)
  | null | boolean | integer | real | string =>
      rw [depth_scalar (converts.scalar (by simp [Json.depth])).1]
      exact Nat.zero_le _

/-- A part of a value is no deeper than the whole. -/
theorem depth_le_of_part {part value : Value} (isPart : Part part value) :
    part.depth ≤ value.depth := by
  induction isPart with
  | whole => exact le_rfl
  | boxed _ ih =>
      rw [depth]
      exact ih
  | @item item items isItem _ ih =>
      have inside : item.depth ≤ Json.deepest (items.map fun item => item.depth) :=
        Json.le_deepest (List.mem_map_of_mem isItem)
      rw [depth]
      omega
  | @entry slot table isSlot _ ih =>
      have inside : slot.value.depth ≤ Json.deepest (table.slots.map fun slot => slot.value.depth) :=
        Json.le_deepest (List.mem_map.mpr ⟨slot, isSlot, rfl⟩)
      rw [depth_map]
      omega

end ConfTree.Value
