/-
Module: ConfTree.Proofs.Path.Parts
Purpose: Whatever is found along a path is a part of the value that the path starts from.
Main exports:
  Value.part_of_descend, Value.descend_scalar, Value.part_of_resolve
-/
import ConfTree.Proofs.Path.Agreement
import ConfTree.Proofs.Success
import ConfTree.Proofs.Value.Shape

namespace ConfTree.Value

/-!
A segment leads into a container, past any boxes around it, and so to a part of the value.  What
holds of all parts of a value therefore holds of everything that a path finds in it.  At a
scalar a path ends, and the failure tells no more of the scalar than its kind.
-/

theorem mem_of_itemAt {items : List Value} {segment : String} {item : Value}
    (found : Path.itemAt items segment = .ok item) : item ∈ items := by
  rw [Path.itemAt] at found
  split at found
  case h_1 => cases found
  case h_2 =>
    split at found
    case h_1 there =>
      cases found
      obtain ⟨position, _, there⟩ := Option.bind_eq_some_iff.mp there
      exact List.mem_of_getElem? there
    case h_2 => cases found

theorem exists_slot_of_at {table : Table Value} {key : String} {entry : Value}
    (found : table.at key = .ok entry) : ∃ slot ∈ table.slots, slot.value = entry := by
  rw [Table.at] at found
  split at found
  case h_1 stored =>
    cases found
    obtain ⟨slot, isSlot, value⟩ := Option.map_eq_some_iff.mp stored
    exact ⟨slot, Table.mem_of_slot? isSlot, value⟩
  case h_2 => cases found

theorem descend_scalar {value : Value} (isScalar : value.isScalar) (segment : String) :
    value.descend segment = .error (.segmentInScalar segment value.kind) := by
  cases value with
  | boxed | sequence | map => cases isScalar
  | _ => rfl

/-- A segment leads to a part of a value. -/
theorem part_of_descend {value child : Value} {segment : String}
    (descends : value.descend segment = .ok child) : Part child value := by
  induction value with
  | boxed inner ih => exact .boxed (ih descends)
  | sequence items ih => exact .item (mem_of_itemAt descends) (.whole child)
  | map table ih =>
      obtain ⟨slot, isSlot, rfl⟩ := exists_slot_of_at descends
      exact .entry isSlot (.whole slot.value)
  | _ => cases descends

/-- A path leads to a part of a value. -/
theorem part_of_resolve {value found : Value} {path : String}
    (resolves : value.resolve path = .ok found) : Part found value := by
  induction path using Path.induction generalizing value with
  | last path last =>
      rw [resolve_of_tail?_none value last] at resolves
      exact part_of_descend resolves
  | more path rest behind ih =>
      rw [resolve_of_tail?_some value behind] at resolves
      obtain ⟨child, descends, resolvesRest⟩ := bind_eq_ok_iff.mp resolves
      exact (ih resolvesRest).trans (part_of_descend descends)

end ConfTree.Value
