/-
Module: ConfTree.Proofs.Value.RoundTrip
Purpose: A value without reals reads back from its JSON text, up to its boxes.
Main exports:
  Value.depth, Value.depth_toJson, Value.legible_toJson, Value.convert_toJson,
  Value.read_compact
-/
import ConfTree.Proofs.Json.RoundTrip
import ConfTree.Proofs.Value.Equality
import ConfTree.Value.Json

namespace ConfTree.Value

/-!
A value goes through three forms on its way out and back: the value, its document, and
the text of that.  Between document and text it is only a matter of depth.  Between
value and document the boxes are lost; the tables are taken apart in walking order and
filed again entry by entry, which gives the same slots.
-/

/-! ### Documents -/

theorem itemsToJson_eq_map (items : List Value) : itemsToJson items = items.map toJson := by
  induction items with
  | nil => rw [itemsToJson, List.map_nil]
  | cons item rest ih => rw [itemsToJson, ih, List.map_cons]

theorem slotsToJson_eq_map (slots : List (Slot Value)) :
    slotsToJson slots = slots.map fun slot => (slot.key, slot.value.toJson) := by
  induction slots with
  | nil => rw [slotsToJson, List.map_nil]
  | cons slot rest ih => rw [slotsToJson, ih, List.map_cons]

theorem toJson_sequence (items : List Value) :
    (sequence items).toJson = .array (items.map toJson) := by
  rw [toJson, itemsToJson_eq_map]

theorem toJson_map (table : Table Value) :
    (map table).toJson =
      .object (table.slots.map fun slot => (slot.key, slot.value.toJson)) := by
  obtain ⟨strategy, slots⟩ := table
  rw [toJson, slotsToJson_eq_map]

/-- How many sequences and maps stand around the innermost part of a value, at most. -/
def depth : Value → Nat
  | .boxed inner => inner.depth
  | .sequence items => 1 + Json.deepest (items.map fun item => item.depth)
  | .map ⟨_, slots⟩ => 1 + Json.deepest (slots.map fun slot => slot.value.depth)
  | _ => 0
termination_by value => sizeOf value
decreasing_by
  · simp_wf
  · exact sizeOf_item_lt ‹_›
  · exact sizeOf_slot_lt ‹_›

/-- A document is as deep as its value. -/
theorem depth_toJson (value : Value) : value.toJson.depth = value.depth := by
  induction value with
  | boxed inner ih => rw [toJson, depth, ih]
  | sequence items ih =>
      rw [toJson_sequence, Json.depth, depth, List.map_map]
      congr 2
      exact List.map_congr_left ih
  | map table ih =>
      rw [toJson_map, Json.depth]
      obtain ⟨strategy, slots⟩ := table
      rw [depth, List.map_map]
      congr 2
      exact List.map_congr_left ih
  | _ => simp [toJson, Json.depth, depth]

/-- The document of a value without reals is legible. -/
theorem legible_toJson {value : Value} (realFree : value.RealFree)
    (wellFiled : value.WellFiled) : value.toJson.Legible := by
  induction value with
  | text content => rw [toJson]; exact .string content
  | real number => exact absurd rfl realFree.self
  | integer number =>
      rw [toJson]
      have limits : (Json.Literal.negativeLimit : Int) = 9223372036854775808 ∧
          (Json.Literal.significandLimit : Int) = 18446744073709551616 := by decide
      have least := number.le_toInt
      have greatest := number.toInt_lt
      exact .integer (by omega) (by omega)
  | boolean truth => rw [toJson]; exact .boolean truth
  | boxed inner ih =>
      rw [toJson]
      exact ih realFree.inner wellFiled.inner
  | sequence items ih =>
      rw [toJson_sequence]
      refine .array ?_
      intro document member
      obtain ⟨item, isItem, rfl⟩ := List.mem_map.mp member
      exact ih item isItem (realFree.item isItem) (wellFiled.item isItem)
  | map table ih =>
      rw [toJson_map]
      refine .object ?_ ?_
      · rw [List.map_map]
        exact (wellFiled.self table rfl).distinct_keys
      · intro document member
        obtain ⟨slot, isSlot, rfl⟩ := List.mem_map.mp member
        exact ih slot isSlot (realFree.entry isSlot) (wellFiled.entry isSlot)

/-! ### Values from documents -/

theorem ofWhole_toInt (number : Int64) : ofWhole number.toInt = .integer number := by
  have inRange : Int64.minValue.toInt ≤ number.toInt ∧ number.toInt ≤ Int64.maxValue.toInt :=
    ⟨number.minValue_le_toInt, number.toInt_le⟩
  rw [ofWhole, if_pos inRange, Int64.ofInt_toInt]

theorem convertItems_map (strategy : Strategy) (path : String) (items : List Value)
    (each : ∀ item ∈ items, ∀ path, convert strategy path item.toJson = .ok item.stripped)
    (index : Nat) :
    convertItems strategy path index (items.map toJson) = .ok (items.map stripped) := by
  induction items generalizing index with
  | nil => rw [List.map_nil, convertItems, List.map_nil]
  | cons item rest ih =>
      obtain ⟨first, following⟩ := List.forall_mem_cons.mp each
      rw [List.map_cons, convertItems, first, ih following]
      rfl

theorem convertMembers_map (strategy : Strategy) (path : String) (slots : List (Slot Value))
    (each : ∀ slot ∈ slots, ∀ path,
      convert strategy path slot.value.toJson = .ok slot.value.stripped) :
    convertMembers strategy path (slots.map fun slot => (slot.key, slot.value.toJson)) =
      .ok (slots.map fun slot => (slot.key, slot.value.stripped)) := by
  induction slots with
  | nil => rw [List.map_nil, convertMembers, List.map_nil]
  | cons slot rest ih =>
      obtain ⟨first, following⟩ := List.forall_mem_cons.mp each
      rw [List.map_cons, convertMembers, first, ih following]
      rfl

/-- The document of a value gives back the value without its boxes. -/
theorem convert_toJson {strategy : Strategy} {value : Value} (realFree : value.RealFree)
    (filedBy : value.FiledBy strategy) (wellFiled : value.WellFiled) (path : String) :
    convert strategy path value.toJson = .ok value.stripped := by
  induction value generalizing path with
  | text content => rw [toJson, convert, stripped]
  | real number => exact absurd rfl realFree.self
  | integer number => rw [toJson, convert, stripped, ofWhole_toInt]
  | boolean truth => rw [toJson, convert, stripped]
  | boxed inner ih =>
      rw [toJson, stripped]
      exact ih realFree.inner filedBy.inner wellFiled.inner path
  | sequence items ih =>
      rw [toJson_sequence, convert, convertItems_map, stripped]
      intro item member
      exact ih item member (realFree.item member) (filedBy.item member) (wellFiled.item member)
  | map table ih =>
      have tableFiled : (table.mapValues stripped).WellFiled :=
        (wellFiled.self table rfl).of_sameKeys (.mapValues table stripped)
      have rebuilt : Table.ofList strategy
          (table.slots.map fun slot => (slot.key, slot.value.stripped)) =
            table.mapValues stripped := by
        have sameStrategy : table.strategy = strategy := filedBy.self table rfl
        have entries : (table.slots.map fun slot => (slot.key, slot.value.stripped)) =
            (table.mapValues stripped).entries := by
          simp [Table.entries, Table.mapValues, Slot.entry]
        rw [entries, ← sameStrategy]
        exact tableFiled.ofList_entries
      rw [toJson_map, convert, convertMembers_map, stripped_map]
      · simp only [rebuilt]
      · intro slot member
        exact ih slot member (realFree.entry member) (filedBy.entry member)
          (wellFiled.entry member)

/-! ### Texts -/

/-- The text of a value without reals reads back as that value without its boxes: its
tables have the strategy again under which all tables in it were filed, and the same
stored keys.  Sequences and maps may be nested 127 deep, empty ones included; one more,
and the text is refused for its depth.  A value holds its tables in the order in which
they are walked, so this is said of every such order. -/
theorem read_compact (strategy : Strategy) {value : Value} (realFree : value.RealFree)
    (filedBy : value.FiledBy strategy) (wellFiled : value.WellFiled) :
    (value.depth ≤ 127 →
        Value.read strategy value.compact = .ok value.stripped ∧
          value.stripped.equal value.stripped) ∧
      (128 ≤ value.depth →
        ∃ line column, Value.read strategy value.compact =
          .error (.malformedJson ⟨.tooDeep, line, column⟩)) := by
  have legible := legible_toJson realFree wellFiled
  have text : value.compact = String.ofList (Json.Layout.compact.written 0 value.toJson) := by
    rw [compact, Json.compact, Json.Layout.written_compact]
  constructor
  · intro shallow
    have document := Json.read_written Json.Layout.compact legible
      (by rw [depth_toJson]; exact shallow)
    refine ⟨?_, equal_self wellFiled.stripped realFree.stripped.nanFree⟩
    rw [Value.read, text, document]
    exact convert_toJson realFree filedBy wellFiled ""
  · intro deep
    obtain ⟨line, column, refused⟩ := Json.read_too_deep Json.Layout.compact legible
      (by rw [depth_toJson]; exact deep)
    exact ⟨line, column, by rw [Value.read, text, refused]⟩

/-- A text inside that many maps, each of which holds a box. -/
def nested : Nat → Value
  | 0 => .text "a\"b\\c\n\x01é"
  | layers + 1 => .map ⟨.hashedCaseInsensitive, [⟨"key", "Key", .boxed (nested layers)⟩]⟩

theorem realFree_nested (layers : Nat) : (nested layers).RealFree := by
  induction layers with
  | zero => exact .of_scalar rfl nofun
  | succ layers ih =>
      refine .of_map nofun ?_
      rw [List.forall_mem_singleton]
      exact .of_boxed nofun ih

theorem filedBy_nested (layers : Nat) : (nested layers).FiledBy .hashedCaseInsensitive := by
  induction layers with
  | zero => exact .of_scalar rfl nofun
  | succ layers ih =>
      refine .of_map ?_ ?_
      · rintro table ⟨⟩
        rfl
      · rw [List.forall_mem_singleton]
        exact .of_boxed nofun ih

theorem wellFiled_nested (layers : Nat) : (nested layers).WellFiled := by
  induction layers with
  | zero => exact .of_scalar rfl nofun
  | succ layers ih =>
      refine .of_map ?_ ?_
      · rintro table ⟨⟩
        refine ⟨?_, by simp, nofun⟩
        rw [List.forall_mem_singleton]
        show "key" = Strategy.foldCase "Key"
        decide
      · rw [List.forall_mem_singleton]
        exact .of_boxed nofun ih

theorem depth_nested (layers : Nat) : (nested layers).depth = layers := by
  induction layers with
  | zero => simp [nested, depth]
  | succ layers ih => simp [nested, depth, Json.deepest, ih, Nat.add_comm]

/-- A text inside 127 maps reads back, and inside 128 maps it is refused. -/
theorem read_compact_nested :
    (Value.read .hashedCaseInsensitive (nested 127).compact = .ok (nested 127).stripped ∧
        (nested 127).stripped.equal (nested 127).stripped) ∧
      ∃ line column, Value.read .hashedCaseInsensitive (nested 128).compact =
        .error (.malformedJson ⟨.tooDeep, line, column⟩) :=
  ⟨(read_compact .hashedCaseInsensitive (realFree_nested 127) (filedBy_nested 127)
      (wellFiled_nested 127)).1 (depth_nested 127).le,
    (read_compact .hashedCaseInsensitive (realFree_nested 128) (filedBy_nested 128)
      (wellFiled_nested 128)).2 (depth_nested 128).ge⟩

end ConfTree.Value
