/-
Module: ConfTree.Proofs.Table.Pairs
Purpose: The table of a list of pairs, and of that list with repeated names merged.
Main exports:
  Table.lastFiled, Table.get?_ofList, Table.SameKeys.eq_of_get?, Table.sameKeys_ofMembers,
  Table.ofList_ofMembers_eq_iff, Table.ofList_ofMembers, Table.ofList_ofMembers_of_ne
-/
import ConfTree.Json.Basic
import ConfTree.Proofs.Table.Walking
import Mathlib.Data.List.Induction

namespace ConfTree

/-!
Pairs are filed one after the other, so the value of a class is that of its last pair,
while the slot of the class is where its first pair put it.  If pairs of the same name are
merged before, the first name of each class and the order of these names stay; the last
pair of a class may be another one, since a merged pair goes to the place of the first of
its name.  So the tables differ in no more than values, and they are the same if in each
class the last pair has the same name before and after.
-/

variable {α : Type}

/-! ### Merged members -/

namespace Json

theorem ofMembers_concat (members : List (String × α)) (last : String × α) :
    ofMembers (members ++ [last]) = setMember (ofMembers members) last.1 last.2 := by
  rw [ofMembers, List.foldl_append]
  rfl

theorem any_name_iff {members : List (String × α)} {name : String} :
    (members.any fun member => member.1 == name) ↔ name ∈ members.map (·.1) := by
  simp

/-- A member that is there after one was given its value is that one or another of before. -/
theorem mem_setMember {members : List (String × α)} {name : String} {value : α}
    {member : String × α} (isMember : member ∈ setMember members name value) :
    member = (name, value) ∨ member ∈ members ∧ member.1 ≠ name := by
  rw [setMember] at isMember
  split at isMember
  case isTrue =>
    obtain ⟨earlier, isEarlier, rfl⟩ := List.mem_map.mp isMember
    by_cases same : earlier.1 = name
    · exact .inl (if_pos (beq_iff_eq.mpr same))
    · rw [if_neg (mt beq_iff_eq.mp same)]
      exact .inr ⟨isEarlier, same⟩
  case isFalse absent =>
    rcases List.mem_append.mp isMember with isEarlier | isLast
    · refine .inr ⟨isEarlier, ?_⟩
      rintro rfl
      exact absent (any_name_iff.mpr (List.mem_map_of_mem isEarlier))
    · exact .inl (List.mem_singleton.mp isLast)

theorem mem_of_mem_ofMembers {members : List (String × α)} {member : String × α}
    (isMember : member ∈ ofMembers members) : member ∈ members := by
  induction members using List.reverseRecOn with
  | nil => cases isMember
  | append_singleton rest last ih =>
      rw [ofMembers_concat] at isMember
      rcases mem_setMember isMember with rfl | ⟨isEarlier, _⟩
      · exact List.mem_append_right rest List.mem_cons_self
      · exact List.mem_append_left _ (ih isEarlier)

/-- A member of a name that is there keeps its place. -/
theorem names_setMember {members : List (String × α)} {name : String}
    (present : name ∈ members.map (·.1)) (value : α) :
    (setMember members name value).map (·.1) = members.map (·.1) := by
  rw [setMember, if_pos (any_name_iff.mpr present), List.map_map]
  apply List.map_congr_left
  intro member _
  by_cases same : member.1 = name
  · simp [same]
  · simp [same]

end Json

namespace Table

/-! ### Tables with the same keys -/

namespace SameKeys

variable {first second : Table α}

theorem symm (same : SameKeys first second) : SameKeys second first :=
  ⟨same.1.symm, same.2.symm⟩

theorem get?_eq_none_iff (same : SameKeys first second) (key : String) :
    first.get? key = none ↔ second.get? key = none := by
  have keys := same.map_key_slot? (first.strategy.keyClass key)
  rw [Table.get?_eq_none_iff, Table.get?_eq_none_iff, ← same.1, ← Option.map_eq_none_iff,
    ← keys, Option.map_eq_none_iff]

/-- The place of a new slot does not depend on values. -/
theorem map_insertSorted {new new' : Slot α} (newFiled : new.filed = new'.filed)
    (newKey : new.key = new'.key) {slots slots' : List (Slot α)}
    (same : (slots.map fun slot => (slot.filed, slot.key)) =
      slots'.map fun slot => (slot.filed, slot.key)) :
    ((insertSorted new slots).map fun slot => (slot.filed, slot.key)) =
      (insertSorted new' slots').map fun slot => (slot.filed, slot.key) := by
  induction slots generalizing slots' with
  | nil =>
      obtain rfl : slots' = [] := by simpa using same.symm
      simp [insertSorted, newFiled, newKey]
  | cons slot rest ih =>
      cases slots' with
      | nil => cases same
      | cons slot' rest' =>
          obtain ⟨sameSlot, sameRest⟩ := List.cons.inj same
          obtain ⟨sameFiled, sameKey⟩ := Prod.mk.inj sameSlot
          rw [insertSorted, insertSorted, newFiled, sameFiled]
          split
          · simp [newFiled, newKey, sameFiled, sameKey, sameRest]
          · simp [sameFiled, sameKey, ih sameRest]

theorem create (same : SameKeys first second) (key : String) (value value' : α) :
    SameKeys (first.create key value) (second.create key value') := by
  obtain ⟨strategy, slots⟩ := first
  obtain ⟨_, slots'⟩ := second
  obtain ⟨rfl, sameSlots⟩ := same
  refine ⟨rfl, ?_⟩
  cases strategy with
  | ordered =>
      simp only [Table.create]
      refine map_insertSorted ?_ ?_ sameSlots <;> rfl
  | hashed | hashedCaseInsensitive => simpa [Table.create] using sameSlots

/-- Whether filing creates an entry, and where, does not depend on values. -/
theorem assign (same : SameKeys first second) (key : String) (value value' : α) :
    SameKeys (first.assign key value).2 (second.assign key value').2 := by
  rw [Table.assign, Table.assign]
  cases found : first.get? key with
  | none =>
      rw [(same.get?_eq_none_iff key).mp found]
      exact same.create key value value'
  | some previous =>
      cases found' : second.get? key with
      | none =>
          rw [(same.get?_eq_none_iff key).mpr found'] at found
          cases found
      | some previous' =>
          exact (SameKeys.modify first key _).symm.trans
            (same.trans (SameKeys.modify second key _))

theorem assignAll (same : SameKeys first second) {pairs pairs' : List (String × α)}
    (names : pairs.map (·.1) = pairs'.map (·.1)) :
    SameKeys (first.assignAll pairs) (second.assignAll pairs') := by
  induction pairs generalizing first second pairs' with
  | nil =>
      obtain rfl : pairs' = [] := by simpa using names.symm
      exact same
  | cons pair rest ih =>
      cases pairs' with
      | nil => cases names
      | cons pair' rest' =>
          have sameName : pair.1 = pair'.1 := (List.cons.inj names).1
          have step := same.assign pair.1 pair.2 pair'.2
          rw [Table.assignAll, Table.assignAll, List.foldl_cons, List.foldl_cons, ← sameName]
          exact ih step (List.cons.inj names).2

end SameKeys

/-- A slot is found by its own key. -/
theorem WellFiled.get?_key {table : Table α} (wellFiled : table.WellFiled) {slot : Slot α}
    (member : slot ∈ table.slots) : table.get? slot.key = some slot.value := by
  have found : table.slot? slot.filed = some slot :=
    (slot?_eq_some_iff wellFiled.distinct).mpr ⟨member, rfl⟩
  rw [get?, ← wellFiled.filed slot member, found]
  rfl

/-- The slots of a table are told by their keys and by what is found under these. -/
theorem WellFiled.slots_eq {table : Table α} (wellFiled : table.WellFiled) :
    table.slots = (table.slots.map fun slot => (slot.filed, slot.key)).filterMap fun keys =>
      (table.get? keys.2).map fun value => ⟨keys.1, keys.2, value⟩ := by
  have each : ∀ slot ∈ table.slots,
      ((table.get? slot.key).map fun value => (⟨slot.filed, slot.key, value⟩ : Slot α)) =
        some slot := by
    intro slot member
    rw [wellFiled.get?_key member]
    rfl
  rw [List.filterMap_map]
  exact (List.filterMap_some.symm.trans (List.filterMap_congr each).symm)

/-- Tables with the same keys that answer every key alike are the same. -/
theorem SameKeys.eq_of_get? {first second : Table α} (same : SameKeys first second)
    (wellFiled : first.WellFiled) (alike : ∀ key, first.get? key = second.get? key) :
    first = second := by
  have slots : first.slots = second.slots := by
    rw [wellFiled.slots_eq, (wellFiled.of_sameKeys same).slots_eq, same.2]
    simp only [alike]
  obtain ⟨strategy, _⟩ := first
  obtain ⟨rfl, _⟩ := same
  rw [Table.mk.injEq]
  exact ⟨rfl, slots⟩

/-! ### Pairs -/

/-- The last pair whose key is in the class of that key. -/
def lastFiled (strategy : Strategy) (pairs : List (String × α)) (key : String) :
    Option (String × α) :=
  (pairs.filter fun pair => strategy.keyClass pair.1 == strategy.keyClass key).getLast?

theorem lastFiled_concat (strategy : Strategy) (pairs : List (String × α)) (last : String × α)
    (key : String) :
    lastFiled strategy (pairs ++ [last]) key =
      if strategy.keyClass last.1 = strategy.keyClass key then some last
      else lastFiled strategy pairs key := by
  rw [lastFiled, List.filter_append]
  by_cases same : strategy.keyClass last.1 = strategy.keyClass key
  · simp [same]
  · simp [same, lastFiled]

theorem mem_of_lastFiled {strategy : Strategy} {pairs : List (String × α)} {key : String}
    {last : String × α} (isLast : lastFiled strategy pairs key = some last) : last ∈ pairs :=
  (List.mem_filter.mp (List.mem_of_getLast? isLast)).1

theorem keyClass_of_lastFiled {strategy : Strategy} {pairs : List (String × α)} {key : String}
    {last : String × α} (isLast : lastFiled strategy pairs key = some last) :
    strategy.keyClass last.1 = strategy.keyClass key := by
  simpa using (List.mem_filter.mp (List.mem_of_getLast? isLast)).2

theorem lastFiled_eq_none_iff {strategy : Strategy} {pairs : List (String × α)} {key : String} :
    lastFiled strategy pairs key = none ↔
      ∀ pair ∈ pairs, strategy.keyClass pair.1 ≠ strategy.keyClass key := by
  simp [lastFiled]

/-- The last pair of a class is the last one of its own name. -/
theorem lastFiled_ordered_of_lastFiled {strategy : Strategy} {pairs : List (String × α)}
    {key : String} {last : String × α} (isLast : lastFiled strategy pairs key = some last) :
    lastFiled .ordered pairs last.1 = some last := by
  induction pairs using List.reverseRecOn with
  | nil => cases isLast
  | append_singleton rest pair ih =>
      rw [lastFiled_concat] at isLast ⊢
      by_cases filed : strategy.keyClass pair.1 = strategy.keyClass key
      · rw [if_pos filed] at isLast
        cases isLast
        exact if_pos rfl
      · rw [if_neg filed] at isLast
        have otherName : ¬ Strategy.ordered.keyClass pair.1 = Strategy.ordered.keyClass last.1 := by
          intro sameName
          change pair.1 = last.1 at sameName
          exact filed (sameName ▸ keyClass_of_lastFiled isLast)
        rw [if_neg otherName]
        exact ih isLast

theorem ofList_concat (strategy : Strategy) (pairs : List (String × α)) (last : String × α) :
    ofList strategy (pairs ++ [last]) = ((ofList strategy pairs).assign last.1 last.2).2 := by
  rw [ofList, assignAll, List.foldl_append]
  rfl

@[simp] theorem ofList_strategy (strategy : Strategy) (pairs : List (String × α)) :
    (ofList strategy pairs).strategy = strategy := by
  induction pairs using List.reverseRecOn with
  | nil => rfl
  | append_singleton rest pair ih => rw [ofList_concat, assign_strategy, ih]

theorem WellFiled.ofList (strategy : Strategy) (pairs : List (String × α)) :
    (ofList strategy pairs).WellFiled := by
  induction pairs using List.reverseRecOn with
  | nil => exact .empty strategy
  | append_singleton rest pair ih =>
      rw [ofList_concat]
      exact ih.assign pair.1 pair.2

/-- The value of a class is that of its last pair. -/
theorem get?_ofList (strategy : Strategy) (pairs : List (String × α)) (key : String) :
    (ofList strategy pairs).get? key = (lastFiled strategy pairs key).map (·.2) := by
  induction pairs using List.reverseRecOn with
  | nil => rfl
  | append_singleton rest pair ih =>
      rw [ofList_concat, get?, slot?_assign (.ofList strategy rest), lastFiled_concat]
      simp only [assign_strategy, ofList_strategy]
      by_cases same : strategy.keyClass key = strategy.keyClass pair.1
      · rw [if_pos same, if_pos same.symm]
        rfl
      · rw [if_neg same, if_neg (Ne.symm same), ← ih, get?, ofList_strategy]

/-- The value of a slot is that of a pair. -/
theorem exists_pair_of_mem_ofList {strategy : Strategy} {pairs : List (String × α)}
    {slot : Slot α} (member : slot ∈ (ofList strategy pairs).slots) :
    ∃ pair ∈ pairs, pair.2 = slot.value := by
  have found := (WellFiled.ofList strategy pairs).get?_key member
  rw [get?_ofList, Option.map_eq_some_iff] at found
  obtain ⟨last, isLast, sameValue⟩ := found
  exact ⟨last, mem_of_lastFiled isLast, sameValue⟩

/-! ### Tables of merged members -/

/-- A merged member has the last value of its name. -/
theorem lastFiled_of_mem_ofMembers {pairs : List (String × α)} {member : String × α}
    (isMember : member ∈ Json.ofMembers pairs) :
    lastFiled .ordered pairs member.1 = some member := by
  induction pairs using List.reverseRecOn with
  | nil => cases isMember
  | append_singleton rest pair ih =>
      rw [Json.ofMembers_concat] at isMember
      rw [lastFiled_concat]
      rcases Json.mem_setMember isMember with rfl | ⟨isEarlier, otherName⟩
      · exact if_pos rfl
      · have notLast : ¬ Strategy.ordered.keyClass pair.1 = Strategy.ordered.keyClass member.1 :=
          Ne.symm otherName
        rw [if_neg notLast]
        exact ih isEarlier

example : Json.ofMembers [("a", 1), ("A", 2), ("a", 3)] = [("a", 3), ("A", 2)] := by decide

/-- Merging changes values only: each class keeps its first name and its place. -/
theorem sameKeys_ofMembers (strategy : Strategy) (pairs : List (String × α)) :
    SameKeys (ofList strategy (Json.ofMembers pairs)) (ofList strategy pairs) := by
  induction pairs using List.reverseRecOn with
  | nil => exact .refl _
  | append_singleton rest pair ih =>
      rw [Json.ofMembers_concat, ofList_concat]
      by_cases present : pair.1 ∈ (Json.ofMembers rest).map (·.1)
      · have merged : SameKeys
            (ofList strategy (Json.setMember (Json.ofMembers rest) pair.1 pair.2))
            (ofList strategy (Json.ofMembers rest)) :=
          (SameKeys.refl (empty strategy)).assignAll (Json.names_setMember present pair.2)
        have filed : (ofList strategy rest).get? pair.1 ≠ none := by
          rw [ne_eq, ← ih.get?_eq_none_iff, get?_ofList, Option.map_eq_none_iff,
            lastFiled_eq_none_iff]
          intro absent
          obtain ⟨member, isMember, sameName⟩ := List.mem_map.mp present
          exact absent member isMember (sameName ▸ rfl)
        have overwritten : SameKeys (ofList strategy rest)
            ((ofList strategy rest).assign pair.1 pair.2).2 := by
          rw [assign]
          cases found : (ofList strategy rest).get? pair.1 with
          | none => exact absurd found filed
          | some previous => exact .modify _ _ _
        exact (merged.trans ih).trans overwritten
      · have added : Json.setMember (Json.ofMembers rest) pair.1 pair.2 =
            Json.ofMembers rest ++ [pair] := by
          rw [Json.setMember, if_neg (mt Json.any_name_iff.mp present)]
        rw [added, ofList_concat]
        exact ih.assign pair.1 pair.2 pair.2

/-- It makes a difference whether pairs are merged before they are filed if and only if the
last pair of some class has another value then. -/
theorem ofList_ofMembers_eq_iff {strategy : Strategy} {pairs : List (String × α)} :
    ofList strategy (Json.ofMembers pairs) = ofList strategy pairs ↔
      ∀ key, (lastFiled strategy (Json.ofMembers pairs) key).map (·.2) =
        (lastFiled strategy pairs key).map (·.2) := by
  constructor
  · intro same key
    rw [← get?_ofList, ← get?_ofList, same]
  · intro alike
    apply (sameKeys_ofMembers strategy pairs).eq_of_get? (.ofList strategy _)
    intro key
    rw [get?_ofList, get?_ofList, alike key]

/-- It makes no difference whether pairs are merged before they are filed if in each class the last
pair has the same name as the last merged one. -/
theorem ofList_ofMembers {strategy : Strategy} {pairs : List (String × α)}
    (sameLast : ∀ key, (lastFiled strategy (Json.ofMembers pairs) key).map (·.1) =
      (lastFiled strategy pairs key).map (·.1)) :
    ofList strategy (Json.ofMembers pairs) = ofList strategy pairs := by
  apply ofList_ofMembers_eq_iff.mpr
  intro key
  have names := sameLast key
  cases isLast : lastFiled strategy pairs key with
  | none =>
      rw [isLast, Option.map_none, Option.map_eq_none_iff] at names
      rw [names]
  | some last =>
      rw [isLast, Option.map_some, Option.map_eq_some_iff] at names
      obtain ⟨merged, isMerged, sameName⟩ := names
      have value := lastFiled_of_mem_ofMembers (mem_of_lastFiled isMerged)
      rw [sameName, lastFiled_ordered_of_lastFiled isLast] at value
      cases value
      rw [isMerged]

theorem lastFiled_ofMembers_eq_none_iff {strategy : Strategy} {pairs : List (String × α)}
    {key : String} :
    lastFiled strategy (Json.ofMembers pairs) key = none ↔ lastFiled strategy pairs key = none := by
  have found := (sameKeys_ofMembers strategy pairs).get?_eq_none_iff key
  rwa [get?_ofList, get?_ofList, Option.map_eq_none_iff, Option.map_eq_none_iff] at found

/-- Where each key is a class of its own, it does not matter whether pairs are merged. -/
theorem ofList_ofMembers_of_ne {strategy : Strategy}
    (ownClass : strategy ≠ .hashedCaseInsensitive) (pairs : List (String × α)) :
    ofList strategy (Json.ofMembers pairs) = ofList strategy pairs := by
  have own : ∀ key, strategy.keyClass key = key := by
    intro key
    cases strategy with
    | ordered | hashed => rfl
    | hashedCaseInsensitive => exact absurd rfl ownClass
  apply ofList_ofMembers
  intro key
  cases isLast : lastFiled strategy pairs key with
  | none => rw [lastFiled_ofMembers_eq_none_iff.mpr isLast]
  | some last =>
      cases isMerged : lastFiled strategy (Json.ofMembers pairs) key with
      | none =>
          rw [lastFiled_ofMembers_eq_none_iff.mp isMerged] at isLast
          cases isLast
      | some merged =>
          have name := keyClass_of_lastFiled isLast
          have mergedName := keyClass_of_lastFiled isMerged
          rw [own, own] at name mergedName
          rw [Option.map_some, Option.map_some, name, mergedName]

end Table

end ConfTree
