/-
Module: ConfTree.Proofs.Value.Boxes
Purpose: Boxes make no difference to paths, and none to JSON texts.
Main exports:
  Value.descend_stripped, Value.toJson_stripped, Value.boxes_are_transparent
-/
import ConfTree.Proofs.Path.Agreement
import ConfTree.Proofs.Value.RoundTrip

namespace ConfTree.Value

/-!
Whoever resolves a path passes through boxes in front of each step, and whoever writes a
value does so in front of each value.  In both cases a box is passed where it stands, so a
value and the same value without boxes are gone through in step, and what is found in the
first is, without its boxes, what is found in the second.
-/

/-! ### Paths -/

/-- A step leads to the same place in a value and in that value without its boxes. -/
theorem descend_stripped (value : Value) (segment : String) :
    Path.Agree False (fun found other => found.stripped = other) (value.descend segment)
      (value.stripped.descend segment) := by
  induction value with
  | boxed inner ih =>
      rw [stripped]
      exact ih
  | sequence items ih =>
      rw [stripped]
      apply Path.itemAt_agree
      rw [List.forall₂_map_right_iff, List.forall₂_same]
      exact fun item _ => rfl
  | map table ih =>
      rw [stripped_map]
      apply Table.at_agree
      · intro entry there
        exact ⟨entry.stripped, by rw [Table.get?_mapValues, there]; rfl, rfl⟩
      · intro absent
        exact .inl (by rw [Table.get?_mapValues, absent]; rfl)
  | _ =>
      rw [stripped]
      exact .failed _

/-! ### Documents -/

/-- A value without its boxes has the same document. -/
theorem toJson_stripped (value : Value) : value.stripped.toJson = value.toJson := by
  induction value with
  | boxed inner ih => rw [stripped, ih, toJson]
  | sequence items ih =>
      rw [stripped, toJson_sequence, toJson_sequence, List.map_map]
      exact congrArg Json.array (List.map_congr_left ih)
  | map table ih =>
      have slots : ∀ slot ∈ table.slots,
          (slot.key, slot.value.stripped.toJson) = (slot.key, slot.value.toJson) := by
        intro slot member
        rw [ih slot member]
      rw [stripped_map, toJson_map, toJson_map, Table.mapValues, List.map_map]
      exact congrArg Json.object (List.map_congr_left slots)
  | _ => rw [stripped]

/-- No part of a value without boxes is a box. -/
theorem stripped_everywhere (value : Value) :
    value.stripped.Everywhere fun part => part.kind ≠ .boxed := by
  intro part isPart
  obtain ⟨source, _, notBoxed, rfl⟩ := part_stripped isPart
  rw [kind_stripped notBoxed]
  exact notBoxed

/-- A value without boxes stays as it is. -/
theorem stripped_of_boxFree {value : Value}
    (boxFree : value.Everywhere fun part => part.kind ≠ .boxed) : value.stripped = value := by
  induction value with
  | boxed inner ih => exact absurd rfl boxFree.self
  | sequence items ih =>
      have each : ∀ item ∈ items, item.stripped = item :=
        fun item isItem => ih item isItem (boxFree.item isItem)
      rw [stripped, List.map_congr_left each, List.map_id']
  | map table ih =>
      have each : ∀ slot ∈ table.slots, { slot with value := slot.value.stripped } = slot := by
        intro slot isSlot
        rw [ih slot isSlot (boxFree.entry isSlot)]
      rw [stripped_map, Table.mapValues, List.map_congr_left each, List.map_id']
  | _ => exact stripped_scalar rfl

/-- A value and the value that is left when all boxes are taken out of it, at any depth,
have the same paths: what a path finds in the first is, without its boxes, what it finds in
the second, and a path that fails in one fails in the other for the same reason.  Both are
written alike. -/
theorem boxes_are_transparent (value : Value) :
    (value.stripped.Everywhere fun part => part.kind ≠ .boxed) ∧
      (∀ path, (value.resolve path).map stripped = value.stripped.resolve path) ∧
      value.stripped.compact = value.compact ∧ value.stripped.pretty = value.pretty := by
  refine ⟨value.stripped_everywhere, ?_, ?_, ?_⟩
  · intro path
    have step : ∀ x y : Value, x.stripped = y → ∀ segment, Path.Agree False
        (fun found other => found.stripped = other) (x.descend segment) (y.descend segment) := by
      rintro x _ rfl segment
      exact x.descend_stripped segment
    exact (resolve_agree step rfl path).map_eq
  · rw [compact, toJson_stripped, compact]
  · rw [pretty, toJson_stripped, pretty]

end ConfTree.Value
