/-
Module: ConfTree.Proofs.Table.Enumeration
Purpose: What a walk of a table shows, entry by entry.
Main exports:
  Cursor.answer, Cursor.Yields, Cursor.yields_ahead, Table.WellFiled.entries_apart,
  Table.WellFiled.entries_ascending, Table.enumeration_of_reached
-/
import ConfTree.Proofs.Table.Pairs
import ConfTree.Proofs.Table.Spelling
import ConfTree.Proofs.Text.ByteOrder

namespace ConfTree

/-!
Look-ups go by the class that a slot is filed under and walks show the key that it stores, so
that the two agree is not to be seen from either alone.  It follows from a table being well
filed: the classes of the stored keys are those under which the slots are filed, and no class is
there twice.

In which order the slots are walked is up to the table, unless it is ordered.  An ordered table
is ascending, and a list can be ascending in one way only.
-/

namespace Cursor

variable {α : Type}

/-- What a call of `next` answers, where so many calls were made before. -/
def answer (cursor : Cursor α) : Nat → Option (String × α)
  | 0 => cursor.next.1
  | number + 1 => cursor.next.2.answer number

/-- The calls of `next` answer those entries one after the other, and nothing after the last. -/
def Yields (cursor : Cursor α) (entries : List (String × α)) : Prop :=
  ∀ number, cursor.answer number = entries[number]?

/-- A cursor yields what is ahead of it. -/
theorem yields_ahead (cursor : Cursor α) : cursor.Yields cursor.ahead := by
  intro number
  induction number generalizing cursor with
  | zero => rw [answer, next, ← head?_ahead, List.head?_eq_getElem?]
  | succ number ih => rw [answer, ih, ahead_next, List.getElem?_tail]

/-- The cursor in front of a table yields all its entries. -/
theorem yields_cursor (table : Table α) (access : Access) (owner : Nat) :
    (table.cursor access owner).Yields table.entries := by
  rw [← ahead_cursor table access owner]
  exact yields_ahead _

end Cursor

namespace Table

/-! ### Entries -/

section

variable {α : Type} {table : Table α}

/-- No two entries have keys of the same class. -/
theorem WellFiled.entries_apart (wellFiled : table.WellFiled) :
    table.entries.Pairwise fun first second =>
      table.strategy.keyClass first.1 ≠ table.strategy.keyClass second.1 := by
  rw [entries, List.pairwise_map]
  refine (List.pairwise_map.mp wellFiled.distinct).imp_of_mem ?_
  intro first second isFirst isSecond different
  rwa [wellFiled.filed first isFirst, wellFiled.filed second isSecond] at different

/-- An entry is found under its own key. -/
theorem WellFiled.get?_of_mem_entries (wellFiled : table.WellFiled) {entry : String × α}
    (isEntry : entry ∈ table.entries) : table.get? entry.1 = some entry.2 := by
  obtain ⟨slot, isSlot, rfl⟩ := List.mem_map.mp isEntry
  exact wellFiled.get?_key isSlot

/-- What is found under a key is shown by an entry whose key is of its class. -/
theorem WellFiled.exists_entry (wellFiled : table.WellFiled) {key : String} {value : α}
    (found : table.get? key = some value) :
    ∃ stored, table.strategy.keyClass stored = table.strategy.keyClass key ∧
      (stored, value) ∈ table.entries := by
  obtain ⟨slot, there, rfl⟩ := Option.map_eq_some_iff.mp found
  refine ⟨slot.key, ?_, List.mem_map_of_mem (f := Slot.entry) (mem_of_slot? there)⟩
  rw [← wellFiled.filed slot (mem_of_slot? there), filed_of_slot? there]

/-- An ordered table shows its keys in ascending order. -/
theorem WellFiled.entries_ascending (wellFiled : table.WellFiled)
    (ordered : table.strategy = .ordered) :
    table.entries.Pairwise fun first second => first.1 < second.1 := by
  rw [entries, List.pairwise_map]
  refine (wellFiled.ascending ordered).imp_of_mem ?_
  intro first second isFirst isSecond before
  rw [wellFiled.filed first isFirst, wellFiled.filed second isSecond, ordered] at before
  exact before

end

/-- Where no two items look alike, only one looks like a given one. -/
theorem filter_eq_singleton {α : Type} {view : α → String} {items : List α}
    (apart : items.Pairwise fun first second => view first ≠ view second) {item : α}
    (isItem : item ∈ items) : (items.filter fun other => view other = view item) = [item] := by
  induction items with
  | nil => cases isItem
  | cons first rest ih =>
      obtain ⟨firstApart, restApart⟩ := List.pairwise_cons.mp apart
      rcases List.mem_cons.mp isItem with rfl | inRest
      · have noOther : (rest.filter fun other => view other = view item) = [] := by
          rw [List.filter_eq_nil_iff]
          intro other isOther
          simpa using Ne.symm (firstApart other isOther)
        rw [List.filter_cons_of_pos (by simp), noOther]
      · rw [List.filter_cons_of_neg (by simpa using firstApart item inRest), ih restApart inRest]

/-- Each way to walk a table that can be reached shows the same list of entries: as many as the
table has, no two of them with keys of the same class, each with what is found under its key,
and for each key that is found exactly one whose key is of its class.  An ordered table shows
them by ascending key, in the order of characters as in that of bytes, and as this leaves no
choice every pass shows the same. -/
theorem enumeration_of_reached {strategy : Strategy} {past : List KeyEvent} {table : Table Value}
    (reached : Reached strategy past table) :
    ∃ entries : List (String × Value),
      (∀ access owner, (table.cursor access owner).Yields entries) ∧
      table.keys = entries.map (·.1) ∧ table.values = entries.map (·.2) ∧
      entries.length = table.size ∧
      (entries.Pairwise fun first second =>
        strategy.keyClass first.1 ≠ strategy.keyClass second.1) ∧
      (∀ entry ∈ entries, table.get? entry.1 = some entry.2) ∧
      (∀ key value, table.get? key = some value → ∃ stored,
        (entries.filter fun entry => strategy.keyClass entry.1 = strategy.keyClass key) =
          [(stored, value)]) ∧
      (strategy = .ordered →
        (entries.Pairwise fun first second => first.1 < second.1) ∧
        (entries.Pairwise fun first second => Text.bytes first.1 < Text.bytes second.1) ∧
        ∀ shown, Rearranged table shown →
          ∀ access owner, (shown.cursor access owner).Yields entries) := by
  have wellFiled := reached.recorded.wellFiled
  obtain rfl : table.strategy = strategy := reached.recorded.strategy_eq
  refine ⟨table.entries, fun access owner => Cursor.yields_cursor table access owner, rfl, rfl,
    List.length_map .., wellFiled.entries_apart,
    fun entry isEntry => wellFiled.get?_of_mem_entries isEntry, ?_, ?_⟩
  · intro key value found
    obtain ⟨stored, sameClass, isEntry⟩ := wellFiled.exists_entry found
    rw [← sameClass]
    exact ⟨stored, filter_eq_singleton wellFiled.entries_apart isEntry⟩
  · intro ordered
    have ascending := wellFiled.entries_ascending ordered
    refine ⟨ascending, ascending.imp fun before => Text.bytes_lt_bytes_iff.mpr before, ?_⟩
    intro shown rearranged access owner
    rw [rearranged.eq_of_ordered wellFiled ordered]
    exact Cursor.yields_cursor table access owner

/-- An ordered table into which keys were filed out of order, and from which one was dropped again,
shows the others in order. -/
theorem enumeration_after_filing :
    let filed := run
      [.insert "b" (.integer 1), .assign "c" (.integer 2), .assign "B" (.integer 3),
        .remove "c", .insert "a" (.integer 4), .assign "b" (.integer 5)]
      (.empty .ordered)
    Reached .ordered
        [.files "b", .files "c", .files "B", .drops "c", .files "a", .files "b"] filed.2 ∧
      ∃ entries, entries.map (·.1) = ["B", "a", "b"] ∧
        (∀ entry ∈ entries, filed.2.get? entry.1 = some entry.2) ∧
        ∀ access owner, (filed.2.cursor access owner).Yields entries := by
  have reached : Reached .ordered
      [.files "b", .files "c", .files "B", .drops "c", .files "a", .files "b"] _ :=
    (((((Reached.new.operated (.insert "b" (.integer 1))).operated
      (.assign "c" (.integer 2))).operated (.assign "B" (.integer 3))).operated
        (.remove "c")).operated (.insert "a" (.integer 4))).operated (.assign "b" (.integer 5))
  obtain ⟨entries, yields, keys, _, _, _, found, _⟩ := enumeration_of_reached reached
  exact ⟨reached, entries, keys.symm.trans (by decide), found, yields⟩

end Table

end ConfTree
