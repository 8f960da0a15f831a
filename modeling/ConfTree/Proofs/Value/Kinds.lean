/-
Module: ConfTree.Proofs.Value.Kinds
Purpose: What is written and read back keeps its shape and the kinds of all its parts.
Main exports:
  Table.mapValues_ofList, Value.RealsFinite, Value.zeroReals, Value.Rereads,
  Value.read_compact_keeps_kinds
-/
import ConfTree.Proofs.Json.Rereading
import ConfTree.Proofs.Value.Document

namespace ConfTree

/-!
A text does not say of what kind a number is, and the reader may round a real to another one.
What stays is that a real is read as a real: it is written with a fraction or an exponent, and
one that has no text at all becomes a null, for which there is no value.  Everything else comes
back as it was but for its boxes.  So value and result are the same when all reals in them are
put to zero.
-/

/-! ### Tables whose values are changed -/

namespace Table

variable {α : Type}

theorem lastFiled_mapValues (strategy : Strategy) (pairs : List (String × α)) (change : α → α)
    (key : String) :
    lastFiled strategy (pairs.map fun pair => (pair.1, change pair.2)) key =
      (lastFiled strategy pairs key).map fun pair => (pair.1, change pair.2) := by
  rw [lastFiled, lastFiled, List.filter_map, List.getLast?_map]
  rfl

/-- To change all values of a table is to file changed values. -/
theorem mapValues_ofList (strategy : Strategy) (pairs : List (String × α)) (change : α → α) :
    (ofList strategy pairs).mapValues change =
      ofList strategy (pairs.map fun pair => (pair.1, change pair.2)) := by
  have names : pairs.map (·.1) = (pairs.map fun pair => (pair.1, change pair.2)).map (·.1) := by
    simp
  have sameKeys : SameKeys ((ofList strategy pairs).mapValues change)
      (ofList strategy (pairs.map fun pair => (pair.1, change pair.2))) :=
    (SameKeys.mapValues _ change).symm.trans ((SameKeys.refl (empty strategy)).assignAll names)
  apply sameKeys.eq_of_get? ((WellFiled.ofList strategy pairs).of_sameKeys (.mapValues _ change))
  intro key
  rw [get?_mapValues, get?_ofList, get?_ofList, lastFiled_mapValues, Option.map_map,
    Option.map_map]
  rfl

end Table

namespace Value

/-! ### Reals -/

/-- All reals in the value are finite. -/
def RealsFinite (value : Value) : Prop :=
  value.Everywhere fun part => ∀ number, part = .real number → number.isFinite

/-- The value with a zero in place of each real in it, at any depth. -/
def zeroReals : Value → Value
  | .real _ => .real ⟨0⟩
  | .boxed inner => .boxed inner.zeroReals
  | .sequence items => .sequence (items.map fun item => item.zeroReals)
  | .map ⟨strategy, slots⟩ =>
      .map ⟨strategy, slots.map fun slot => { slot with value := slot.value.zeroReals }⟩
  | .text content => .text content
  | .integer number => .integer number
  | .boolean truth => .boolean truth
termination_by value => sizeOf value
decreasing_by
  · simp_wf
  · exact sizeOf_item_lt ‹_›
  · exact sizeOf_slot_lt ‹_›

theorem zeroReals_map (table : Table Value) :
    (map table).zeroReals = .map (table.mapValues zeroReals) := by
  cases table
  rw [zeroReals]
  rfl

/-! ### What comes of a value -/

/-- The result comes of a text of the value that is read within some limit. -/
def Rereads (strategy : Strategy) (value result : Value) : Prop :=
  ∃ limit json, value.toJson.reread limit = .ok json ∧ Converts strategy json result

variable {strategy : Strategy} {result : Value}

theorem rereads_text {content : String} (rereads : Rereads strategy (.text content) result) :
    result = .text content := by
  obtain ⟨limit, json, reread, converts⟩ := rereads
  simp only [toJson, Json.reread] at reread
  cases reread
  exact converts.unique fun _ => by simp only [convert]

theorem rereads_boolean {truth : Bool} (rereads : Rereads strategy (.boolean truth) result) :
    result = .boolean truth := by
  obtain ⟨limit, json, reread, converts⟩ := rereads
  simp only [toJson, Json.reread] at reread
  cases reread
  exact converts.unique fun _ => by simp only [convert]

/-- An integer is written so that the reader can hold it as a whole number. -/
theorem rereads_integer {number : Int64} (rereads : Rereads strategy (.integer number) result) :
    result = .integer number := by
  obtain ⟨limit, json, reread, converts⟩ := rereads
  have limits : (Json.Literal.negativeLimit : Int) = 9223372036854775808 ∧
      (Json.Literal.significandLimit : Int) = 18446744073709551616 := by decide
  have least := number.le_toInt
  have greatest := number.toInt_lt
  have value := Json.Literal.value_ofInt (n := number.toInt) (by omega) (by omega)
  simp only [toJson, Json.reread, Json.Literal.number, value] at reread
  cases reread
  exact converts.unique fun _ => by simp only [convert, ofWhole_toInt]

/-- A real comes back as a real, and only if it is finite. -/
theorem rereads_real {number : Binary64} (rereads : Rereads strategy (.real number) result) :
    number.isFinite ∧ ∃ other, result = .real other := by
  obtain ⟨limit, json, reread, converts⟩ := rereads
  cases finite : number.isFinite with
  | false =>
      simp [toJson, Json.reread, finite] at reread
      cases reread
      exact absurd converts.nullFree Json.not_nullFree_null
  | true =>
      cases stands : (Json.Literal.ofReal number).value with
      | error unread =>
          simp [toJson, Json.reread, finite, Json.Literal.number, stands] at reread
      | ok found =>
          simp [toJson, Json.reread, finite, Json.Literal.number, stands] at reread
          cases reread
          have fractional := Json.Literal.fractional_ofReal number
          obtain ⟨other, rfl⟩ := Json.Literal.real_of_value fractional stands
          exact ⟨rfl, other, converts.unique fun _ => by simp only [convert]⟩

theorem rereads_boxed {inner : Value} (rereads : Rereads strategy (.boxed inner) result) :
    Rereads strategy inner result := by
  obtain ⟨limit, json, reread, converts⟩ := rereads
  simp only [toJson] at reread
  exact ⟨limit, json, reread, converts⟩

theorem rereads_sequence {items : List Value}
    (rereads : Rereads strategy (.sequence items) result) :
    ∃ results, result = .sequence results ∧ List.Forall₂ (Rereads strategy) items results := by
  obtain ⟨limit, json, reread, converts⟩ := rereads
  simp only [toJson_sequence] at reread
  cases limit with
  | zero => simp [Json.reread] at reread
  | succ limit =>
      simp only [Json.reread] at reread
      obtain ⟨documents, readEach, rfl⟩ := map_eq_ok_iff.mp reread
      obtain ⟨results, rfl, convertEach⟩ := converts_array converts
      have documentEach := List.forall₂_map_left_iff.mp (mapM_eq_ok_iff.mp readEach)
      refine ⟨results, rfl, forall₂_of_common documentEach.flip convertEach ?_⟩
      exact fun document _ item found reads converts => ⟨limit, document, reads, converts⟩

theorem rereads_map {table : Table Value} (wellFiled : table.WellFiled)
    (rereads : Rereads strategy (.map table) result) :
    ∃ pairs, result = .map (Table.ofList strategy pairs) ∧
      List.Forall₂ (fun slot pair => slot.key = pair.1 ∧ Rereads strategy slot.value pair.2)
        table.slots pairs := by
  obtain ⟨limit, json, reread, converts⟩ := rereads
  simp only [toJson_map] at reread
  cases limit with
  | zero => simp [Json.reread] at reread
  | succ limit =>
      simp only [Json.reread] at reread
      obtain ⟨members, readEach, rfl⟩ := map_eq_ok_iff.mp reread
      have memberEach : List.Forall₂ (fun (slot : Slot Value) (member : String × Json) =>
          slot.key = member.1 ∧ slot.value.toJson.reread limit = .ok member.2)
          table.slots members := by
        apply (List.forall₂_map_left_iff.mp (mapM_eq_ok_iff.mp readEach)).imp
        intro slot member read
        obtain ⟨document, readValue, rfl⟩ := map_eq_ok_iff.mp read
        exact ⟨rfl, readValue⟩
      have names : table.slots.map (·.key) = members.map (·.1) :=
        map_eq_map_of_forall₂ memberEach fun _ _ _ same => same.1
      have distinct : (members.map (·.1)).Nodup := by
        rw [← names]
        exact wellFiled.distinct_keys
      rw [Json.ofMembers_of_nodup distinct] at converts
      obtain ⟨pairs, rfl, convertEach⟩ := converts_object converts
      refine ⟨pairs, rfl, forall₂_of_common memberEach.flip convertEach ?_⟩
      rintro member _ slot pair ⟨key, reads⟩ ⟨name, converts⟩
      exact ⟨key.trans name, limit, member.2, reads, converts⟩

/-! ### Shape and kinds -/

/-- A value that comes back from its text has no real in it that is not finite. -/
theorem Rereads.realsFinite {value : Value} (rereads : Rereads strategy value result)
    (wellFiled : value.WellFiled) : value.RealsFinite := by
  induction value generalizing result with
  | text | integer | boolean => exact .of_scalar rfl nofun
  | real number =>
      refine .of_scalar rfl ?_
      rintro _ ⟨⟩
      exact (rereads_real rereads).1
  | boxed inner ih => exact .of_boxed nofun (ih (rereads_boxed rereads) wellFiled.inner)
  | sequence items ih =>
      obtain ⟨results, _, each⟩ := rereads_sequence rereads
      refine .of_sequence nofun ?_
      intro item isItem
      obtain ⟨found, _, rereadsItem⟩ := exists_of_mem_forall₂ each.flip isItem
      exact ih item isItem rereadsItem (wellFiled.item isItem)
  | map table ih =>
      obtain ⟨pairs, _, each⟩ := rereads_map (wellFiled.self table rfl) rereads
      refine .of_map nofun ?_
      intro slot isSlot
      obtain ⟨pair, _, _, rereadsSlot⟩ := exists_of_mem_forall₂ each.flip isSlot
      exact ih slot isSlot rereadsSlot (wellFiled.entry isSlot)

/-- A value comes back from its text as it was, but for boxes and the size of reals. -/
theorem Rereads.zeroReals {value : Value} (rereads : Rereads strategy value result)
    (filedBy : value.FiledBy strategy) (wellFiled : value.WellFiled) :
    result.zeroReals = value.stripped.zeroReals := by
  induction value generalizing result with
  | text content => simp [rereads_text rereads, stripped]
  | integer number => simp [rereads_integer rereads, stripped]
  | boolean truth => simp [rereads_boolean rereads, stripped]
  | real number =>
      obtain ⟨other, rfl⟩ := (rereads_real rereads).2
      simp [stripped, Value.zeroReals]
  | boxed inner ih =>
      rw [stripped]
      exact ih (rereads_boxed rereads) filedBy.inner wellFiled.inner
  | sequence items ih =>
      obtain ⟨results, rfl, each⟩ := rereads_sequence rereads
      have same : (items.map stripped).map Value.zeroReals = results.map Value.zeroReals := by
        rw [List.map_map]
        apply map_eq_map_of_forall₂ each
        intro item isItem found rereadsItem
        exact (ih item isItem rereadsItem (filedBy.item isItem) (wellFiled.item isItem)).symm
      simp only [stripped, Value.zeroReals]
      exact congrArg Value.sequence same.symm
  | map table ih =>
      have tableFiled : table.WellFiled := wellFiled.self table rfl
      have sameStrategy : table.strategy = strategy := filedBy.self table rfl
      obtain ⟨pairs, rfl, each⟩ := rereads_map tableFiled rereads
      let expected := (table.mapValues stripped).mapValues Value.zeroReals
      have expectedFiled : expected.WellFiled :=
        (tableFiled.of_sameKeys (.mapValues table stripped)).of_sameKeys (.mapValues _ _)
      have entries : expected.entries =
          pairs.map fun pair => (pair.1, pair.2.zeroReals) := by
        simp only [expected, Table.entries, Table.mapValues, List.map_map]
        apply map_eq_map_of_forall₂ each
        rintro slot isSlot pair ⟨key, rereadsSlot⟩
        have values := ih slot isSlot rereadsSlot (filedBy.entry isSlot) (wellFiled.entry isSlot)
        simp [Slot.entry, key, values]
      rw [stripped_map, zeroReals_map, zeroReals_map, Table.mapValues_ofList, ← entries,
        ← sameStrategy]
      exact congrArg Value.map expectedFiled.ofList_entries

/-- A value that is read from the text of another one has come of that one. -/
theorem rereads_of_read {value : Value}
    (reads : Value.read strategy value.compact = .ok result) : Rereads strategy value result := by
  rw [Value.read, compact, Json.compact, ← Json.Layout.written_compact 0] at reads
  cases document : Json.read (String.ofList (Json.Layout.compact.written 0 value.toJson)) with
  | error error =>
      rw [document] at reads
      cases reads
  | ok json =>
      rw [document] at reads
      exact ⟨_, json, (Json.read_written_eq_ok_iff _).mp document, converts_of_ofJson reads⟩

/-- A value whose text reads back has no infinite real in it and none that is not a number, and
comes back without its boxes but otherwise as it was, of the same shape, with the same keys and
with parts of the same kinds.  Only reals may be other reals than before. -/
theorem read_compact_keeps_kinds {value : Value} (filedBy : value.FiledBy strategy)
    (wellFiled : value.WellFiled) (reads : Value.read strategy value.compact = .ok result) :
    value.RealsFinite ∧ result.zeroReals = value.stripped.zeroReals := by
  have rereads := rereads_of_read reads
  exact ⟨rereads.realsFinite wellFiled, rereads.zeroReals filedBy wellFiled⟩

/-! ### A real that is read as its neighbour -/

/-- A minus zero, a whole real and an integer of the same size, and a real of which the reader
loses the last bit. -/
def magnitudes : Value :=
  .map ⟨.ordered, [
    ⟨"a", "a", .boxed (.sequence [.real ⟨0x8000000000000000⟩, .real ⟨0x43b0000000000000⟩,
      .integer 0x1000000000000000])⟩,
    ⟨"b", "b", .real ⟨0x01c1ae0d67409590⟩⟩]⟩

/-- The value that is read from the text of `magnitudes`. -/
def magnitudesRead : Value :=
  .map ⟨.ordered, [
    ⟨"a", "a", .sequence [.real ⟨0x8000000000000000⟩, .real ⟨0x43b0000000000000⟩,
      .integer 0x1000000000000000]⟩,
    ⟨"b", "b", .real ⟨0x01c1ae0d6740958f⟩⟩]⟩

/-- Whether a document is read as that real can be computed. -/
instance decidableReadsReal (answer : Except Json.Cause Json) (number : Binary64) :
    Decidable (answer = .ok (.real number)) :=
  match answer with
  | .ok (.real other) => decidable_of_iff (other = number) (by simp)
  | .ok .null | .ok (.boolean _) | .ok (.integer _) | .ok (.string _) | .ok (.array _)
  | .ok (.object _) | .error _ => isFalse nofun

theorem reread_magnitudes : magnitudes.toJson.reread 127 = .ok magnitudesRead.toJson := by
  have minusZero : Json.reread 125 (.real ⟨0x8000000000000000⟩) =
      .ok (.real ⟨0x8000000000000000⟩) := by decide +kernel
  have whole : Json.reread 125 (.real ⟨0x43b0000000000000⟩) =
      .ok (.real ⟨0x43b0000000000000⟩) := by decide +kernel
  have tiny : Json.reread 126 (.real ⟨0x01c1ae0d67409590⟩) =
      .ok (.real ⟨0x01c1ae0d6740958f⟩) := by decide +kernel
  have integer : Json.reread 125 (.integer (0x1000000000000000 : Int64).toInt) =
      .ok (.integer (0x1000000000000000 : Int64).toInt) := rfl
  have items : Json.reread 126 (.array [.real ⟨0x8000000000000000⟩, .real ⟨0x43b0000000000000⟩,
      .integer (0x1000000000000000 : Int64).toInt]) =
        .ok (.array [.real ⟨0x8000000000000000⟩, .real ⟨0x43b0000000000000⟩,
          .integer (0x1000000000000000 : Int64).toInt]) := by
    rw [Json.reread]
    simp only [List.mapM_cons, minusZero, whole, integer]
    rfl
  simp only [magnitudes, magnitudesRead, toJson, itemsToJson, slotsToJson]
  rw [Json.reread]
  simp only [List.mapM_cons, items, tiny]
  rfl

theorem read_magnitudes : Value.read .ordered magnitudes.compact = .ok magnitudesRead := by
  have document := (Json.read_written_eq_ok_iff Json.Layout.compact).mpr reread_magnitudes
  rw [Json.Layout.written_compact] at document
  rw [Value.read, compact, Json.compact, document]
  rfl

/-- A property of `magnitudes` and of all values but maps holds everywhere in `magnitudes`. -/
theorem everywhere_magnitudes {property : Value → Prop} (whole : property magnitudes)
    (inside : ∀ part : Value, part.kind ≠ .map → property part) :
    magnitudes.Everywhere property := by
  have scalar : ∀ part : Value, part.isScalar → part.Everywhere property := by
    intro part isScalar
    refine .of_scalar isScalar (inside part ?_)
    intro isMap
    cases part with
    | map => cases isScalar
    | _ => cases isMap
  refine .of_map whole ?_
  simp only [List.forall_mem_cons]
  refine ⟨.of_boxed (inside _ nofun) (.of_sequence (inside _ nofun) ?_), scalar _ rfl, nofun⟩
  simp only [List.forall_mem_cons]
  exact ⟨scalar _ rfl, scalar _ rfl, scalar _ rfl, nofun⟩

/-- From the text of `magnitudes` the whole real comes back as a real, and the other one with
another last bit. -/
theorem read_compact_keeps_kinds_magnitudes :
    Value.read .ordered magnitudes.compact = .ok magnitudesRead ∧
      magnitudes.RealsFinite ∧ magnitudesRead.zeroReals = magnitudes.stripped.zeroReals := by
  have filedBy : magnitudes.FiledBy .ordered := by
    refine everywhere_magnitudes ?_ ?_
    · rintro _ ⟨⟩
      rfl
    · rintro _ notMap table rfl
      exact absurd rfl notMap
  have wellFiled : magnitudes.WellFiled := by
    refine everywhere_magnitudes ?_ ?_
    · rintro _ ⟨⟩
      exact ⟨by decide, by decide, by decide⟩
    · rintro _ notMap table rfl
      exact absurd rfl notMap
  exact ⟨read_magnitudes, read_compact_keeps_kinds filedBy wellFiled read_magnitudes⟩

end Value

end ConfTree
