/-
Module: ConfTree.Proofs.Table.Apart
Purpose: The table of pairs whose names the strategy tells apart.
Main exports:
  Strategy.TellsApart, Table.lastFiled_of_tellsApart, Table.entries_ofList
-/
import ConfTree.Proofs.Table.Pairs

namespace ConfTree

/-!
Two names are lost in one another only if they are in the same class.  Where no class has
two of the names, filing is merging: a look-up finds the last pair of the very name that is
looked up, and a table that keeps its entries as they were created shows the merged pairs.
-/

variable {α : Type}

/-- No two of the names are in the same class. -/
def Strategy.TellsApart (strategy : Strategy) (names : List String) : Prop :=
  ∀ first ∈ names, ∀ second ∈ names,
    strategy.keyClass first = strategy.keyClass second → first = second

namespace Table

theorem lastFiled_of_tellsApart {strategy : Strategy} {pairs : List (String × α)}
    (apart : strategy.TellsApart (pairs.map (·.1))) {key : String} {last : String × α}
    (isLast : lastFiled .ordered pairs key = some last) :
    lastFiled strategy pairs key = some last := by
  have name : last.1 = key := keyClass_of_lastFiled isLast
  cases found : lastFiled strategy pairs key with
  | none =>
      have filed := lastFiled_eq_none_iff.mp found last (mem_of_lastFiled isLast)
      exact absurd (congrArg strategy.keyClass name) filed
  | some other =>
      have sameName : other.1 = last.1 := by
        apply apart _ (List.mem_map_of_mem (mem_of_lastFiled found)) _
          (List.mem_map_of_mem (mem_of_lastFiled isLast))
        rw [keyClass_of_lastFiled found, name]
      have lastOfName := lastFiled_ordered_of_lastFiled found
      rw [sameName, name, isLast] at lastOfName
      exact lastOfName.symm

theorem map_fst_entries (table : Table α) :
    table.entries.map (·.1) = table.slots.map (·.key) := by
  rw [entries, List.map_map]
  rfl

/-- A table that is not ordered gets new entries at its end. -/
theorem entries_create {table : Table α} (unordered : table.strategy ≠ .ordered) (key : String)
    (value : α) : (table.create key value).entries = table.entries ++ [(key, value)] := by
  obtain ⟨strategy, slots⟩ := table
  cases strategy with
  | ordered => exact absurd rfl unordered
  | hashed | hashedCaseInsensitive => simp [entries, create, Slot.entry]

/-- To file a pair is to give a member its value if no other name is in that class. -/
theorem entries_assign {table : Table α} (wellFiled : table.WellFiled)
    (unordered : table.strategy ≠ .ordered) {key : String}
    (apart : ∀ slot ∈ table.slots,
      table.strategy.keyClass slot.key = table.strategy.keyClass key → slot.key = key)
    (value : α) :
    (table.assign key value).2.entries = Json.setMember table.entries key value := by
  have filed : ∀ slot ∈ table.slots,
      slot.filed = table.strategy.keyClass key ↔ slot.key = key := by
    intro slot member
    rw [wellFiled.filed slot member]
    exact ⟨apart slot member, congrArg _⟩
  rw [assign]
  cases found : table.slot? (table.strategy.keyClass key) with
  | none =>
      have absent : key ∉ table.entries.map (·.1) := by
        rw [map_fst_entries]
        intro present
        obtain ⟨slot, member, name⟩ := List.mem_map.mp present
        rw [slot?_eq_none_iff, ← (filed slot member).mpr name] at found
        exact found (List.mem_map_of_mem member)
      rw [get?_eq_none_iff.mpr found, Json.setMember, if_neg (mt Json.any_name_iff.mp absent)]
      exact entries_create unordered key value
  | some previous =>
      have member := mem_of_slot? found
      have present : key ∈ table.entries.map (·.1) := by
        rw [map_fst_entries, ← (filed previous member).mp (filed_of_slot? found)]
        exact List.mem_map_of_mem member
      have stored : table.get? key = some previous.value := by
        rw [get?, found]
        rfl
      rw [Json.setMember, if_pos (Json.any_name_iff.mpr present)]
      simp only [stored, entries, modify, List.map_map]
      apply List.map_congr_left
      intro slot isSlot
      by_cases same : slot.key = key
      · simp [Slot.entry, same, (filed slot isSlot).mpr same]
      · simp [Slot.entry, same, mt (filed slot isSlot).mp same]

/-- A table that is not ordered shows the merged pairs if all names are told apart. -/
theorem entries_ofList {strategy : Strategy} (unordered : strategy ≠ .ordered)
    {pairs : List (String × α)} (apart : strategy.TellsApart (pairs.map (·.1))) :
    (ofList strategy pairs).entries = Json.ofMembers pairs := by
  induction pairs using List.reverseRecOn with
  | nil => rfl
  | append_singleton rest pair ih =>
      rw [List.map_append] at apart
      have shown := ih fun first isFirst second isSecond =>
        apart first (List.mem_append_left _ isFirst) second (List.mem_append_left _ isSecond)
      have names : ∀ slot ∈ (ofList strategy rest).slots, slot.key ∈ rest.map (·.1) := by
        intro slot member
        have isMember : slot.entry ∈ Json.ofMembers rest := shown ▸ List.mem_map_of_mem member
        exact List.mem_map_of_mem (Json.mem_of_mem_ofMembers isMember)
      rw [ofList_concat, Json.ofMembers_concat, ← shown]
      apply entries_assign (.ofList strategy rest)
      · rwa [ofList_strategy]
      · intro slot member sameClass
        rw [ofList_strategy] at sameClass
        exact apart slot.key (List.mem_append_left _ (names slot member)) pair.1
          (List.mem_append_right _ List.mem_cons_self) sameClass

end Table

end ConfTree
