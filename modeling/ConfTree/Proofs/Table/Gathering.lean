/-
Module: ConfTree.Proofs.Table.Gathering
Purpose: A table made of pairs has the last value and the first spelling of each class.
Main exports:
  Table.firstFiled, Table.map_key_slot?_ofList, Table.size_ofList, Table.mem_keys_ofList_iff,
  Table.Interchangeable, Table.equal_ofList_iff, Table.Regrouped, Table.ofList_gathers
-/
import ConfTree.Proofs.Table.Extensionality
import ConfTree.Proofs.Table.Pairs

namespace ConfTree.Table

/-!
When a pair is filed and its class has an entry already, the value is replaced and the stored key
is not.  So of the pairs of a class the last one decides what is found and the first one decides
how the key is spelled, and all that is between them leaves no trace.  The pairs of one class
have no effect on another class, hence it is only in a single class that their order counts.
-/

section

variable {α : Type} {strategy : Strategy} {pairs : List (String × α)}

/-! ### First spellings -/

/-- The first pair whose key is in the class of that key. -/
def firstFiled (strategy : Strategy) (pairs : List (String × α)) (key : String) :
    Option (String × α) :=
  pairs.find? fun pair => strategy.keyClass pair.1 == strategy.keyClass key

/-- One more pair is the first of its class only if there is none before it. -/
theorem firstFiled_concat (strategy : Strategy) (pairs : List (String × α)) (last : String × α)
    (key : String) :
    firstFiled strategy (pairs ++ [last]) key =
      (firstFiled strategy pairs key).or
        (if strategy.keyClass last.1 = strategy.keyClass key then some last else none) := by
  rw [firstFiled, List.find?_append, firstFiled]
  by_cases same : strategy.keyClass last.1 = strategy.keyClass key
  · simp [same]
  · simp [same]

/-- The stored key of a class is that of its first pair. -/
theorem map_key_slot?_ofList (strategy : Strategy) (pairs : List (String × α)) (key : String) :
    ((ofList strategy pairs).slot? (strategy.keyClass key)).map (·.key) =
      (firstFiled strategy pairs key).map (·.1) := by
  induction pairs using List.reverseRecOn with
  | nil => rfl
  | append_singleton rest last ih =>
      rw [ofList_concat, slot?_assign (.ofList strategy rest), firstFiled_concat, ofList_strategy]
      by_cases same : strategy.keyClass key = strategy.keyClass last.1
      · -- Either the class has its slot already or this pair creates it.
        have stored : ((ofList strategy rest).slotOrNew last.1 last.2).key =
            ((firstFiled strategy rest key).map (·.1)).getD last.1 := by
          rw [slotOrNew, ofList_strategy, ← same, ← ih]
          cases (ofList strategy rest).slot? (strategy.keyClass key) <;> rfl
        rw [if_pos same, if_pos same.symm, Option.map_some, stored]
        cases firstFiled strategy rest key <;> rfl
      · rw [if_neg same, if_neg (Ne.symm same), ih, Option.or_none]

/-- A key is stored exactly if it is what is stored for its class. -/
theorem WellFiled.mem_keys_iff {table : Table α} (wellFiled : table.WellFiled) {stored : String} :
    stored ∈ table.keys ↔
      (table.slot? (table.strategy.keyClass stored)).map (·.key) = some stored := by
  have shown : table.keys = table.slots.map (·.key) := by
    rw [keys, entries, List.map_map]
    rfl
  rw [shown, List.mem_map]
  constructor
  · rintro ⟨slot, isSlot, rfl⟩
    rw [← wellFiled.filed slot isSlot,
      (slot?_eq_some_iff wellFiled.distinct).mpr ⟨isSlot, rfl⟩]
    rfl
  · intro found
    obtain ⟨slot, there, sameKey⟩ := Option.map_eq_some_iff.mp found
    exact ⟨slot, mem_of_slot? there, sameKey⟩

/-- The keys that are stored are those that come first in their class. -/
theorem mem_keys_ofList_iff {stored : String} :
    stored ∈ (ofList strategy pairs).keys ↔
      (firstFiled strategy pairs stored).map (·.1) = some stored := by
  rw [(WellFiled.ofList strategy pairs).mem_keys_iff, ofList_strategy, map_key_slot?_ofList]

/-! ### Classes -/

/-- The classes that are filed are those of the pairs. -/
theorem mem_filed_ofList_iff {filed : String} :
    filed ∈ (ofList strategy pairs).slots.map (·.filed) ↔
      filed ∈ pairs.map fun pair => strategy.keyClass pair.1 := by
  have wellFiled := WellFiled.ofList strategy pairs
  constructor
  · intro present
    obtain ⟨slot, isSlot, rfl⟩ := List.mem_map.mp present
    have found := wellFiled.get?_key isSlot
    rw [get?_ofList, Option.map_eq_some_iff] at found
    obtain ⟨last, isLast, _⟩ := found
    rw [wellFiled.filed slot isSlot, ofList_strategy, ← keyClass_of_lastFiled isLast]
    exact List.mem_map_of_mem (mem_of_lastFiled isLast)
  · intro present
    obtain ⟨pair, isPair, rfl⟩ := List.mem_map.mp present
    by_contra absent
    have nothing : (ofList strategy pairs).get? pair.1 = none := by
      rw [get?_eq_none_iff, ofList_strategy]
      exact slot?_eq_none_iff.mpr absent
    rw [get?_ofList, Option.map_eq_none_iff, lastFiled_eq_none_iff] at nothing
    exact nothing pair isPair rfl

/-- There are as many entries as there are classes among the keys. -/
theorem size_ofList (strategy : Strategy) (pairs : List (String × α)) :
    (ofList strategy pairs).size =
      (pairs.map fun pair => strategy.keyClass pair.1).toFinset.card := by
  have classes : ((ofList strategy pairs).slots.map (·.filed)).toFinset =
      (pairs.map fun pair => strategy.keyClass pair.1).toFinset := by
    ext filed
    rw [List.mem_toFinset, List.mem_toFinset, mem_filed_ofList_iff]
  rw [← classes, List.toFinset_card_of_nodup (WellFiled.ofList strategy pairs).distinct,
    List.length_map, size]

/-! ### Orders of filing -/

/-- Two lists have the same pairs in each class, and those of one class in the same order. -/
def Regrouped (strategy : Strategy) (pairs others : List (String × α)) : Prop :=
  ∀ key, (others.filter fun pair => strategy.keyClass pair.1 == strategy.keyClass key) =
    pairs.filter fun pair => strategy.keyClass pair.1 == strategy.keyClass key

/-- To regroup pairs does not change which one is the last of its class. -/
theorem Regrouped.lastFiled_eq {others : List (String × α)}
    (regrouped : Regrouped strategy pairs others) (key : String) :
    lastFiled strategy others key = lastFiled strategy pairs key := by
  rw [lastFiled, regrouped key, lastFiled]

end

/-! ### Comparing tables of pairs -/

section

variable {first second : Table Value}

/-- The same is found in both tables, and no comparison tells one from the other. -/
structure Interchangeable (first second : Table Value) : Prop where
  strategy_eq : first.strategy = second.strategy
  contents_eq : first.contents = second.contents
  equal_eq : ∀ table : Table Value, table.WellFiled → first.equal table = second.equal table

/-- Tables of one strategy that answer every key alike can stand for each other. -/
theorem WellFiled.interchangeable (wellFiled : first.WellFiled) (otherFiled : second.WellFiled)
    (sameStrategy : first.strategy = second.strategy)
    (sameFound : ∀ key, first.get? key = second.get? key) : Interchangeable first second := by
  refine ⟨sameStrategy, ?_, ?_⟩
  · apply Finmap.ext_lookup
    exact (wellFiled.forall_lookup_iff Eq rfl otherFiled sameStrategy).mpr sameFound
  · intro table tableFiled
    rw [Bool.eq_iff_iff, equal_iff_get? wellFiled tableFiled, equal_iff_get? otherFiled tableFiled]
    simp only [sameStrategy, sameFound]

end

variable {strategy : Strategy} {pairs others : List (String × Value)}

/-- Tables of pairs are equal exactly if each class has equal last values. -/
theorem equal_ofList_iff :
    (ofList strategy pairs).equal (ofList strategy others) = true ↔
      ∀ key, Option.Rel (fun value other : Value => value.equal other = true)
        ((lastFiled strategy pairs key).map (·.2)) ((lastFiled strategy others key).map (·.2)) := by
  rw [equal_iff_get? (.ofList strategy pairs) (.ofList strategy others)]
  simp only [ofList_strategy, true_and, get?_ofList]

/-- Values that equal themselves make a table that does, from whichever pairs it was made. -/
theorem equal_ofList_of_lastFiled
    (sameLast : ∀ key, (lastFiled strategy others key).map (·.2) =
      (lastFiled strategy pairs key).map (·.2))
    (selfEqual : ∀ pair ∈ pairs, pair.2.equal pair.2 = true) :
    (ofList strategy pairs).equal (ofList strategy others) = true := by
  rw [equal_ofList_iff]
  intro key
  rw [sameLast key]
  cases isLast : lastFiled strategy pairs key with
  | none => exact .none
  | some last => exact .some (selfEqual last (mem_of_lastFiled isLast))

/-- The table of some pairs has for each key the value of the last pair of its class, and one
entry for each class.  The keys that it stores are those that are the first of their class.  Two
such tables are equal exactly if the last values of each class are.  If these are the very same,
nothing else about the pairs matters: the same is found in both tables and all comparisons come
out alike, and they are equal unless there is a value that does not even equal itself.  And that
is so if the pairs of each class come in the same order, however they lie between those of other
classes. -/
theorem ofList_gathers (strategy : Strategy) (pairs : List (String × Value)) :
    (∀ key, (ofList strategy pairs).get? key = (lastFiled strategy pairs key).map (·.2)) ∧
      (ofList strategy pairs).size =
        (pairs.map fun pair => strategy.keyClass pair.1).toFinset.card ∧
      (∀ stored, stored ∈ (ofList strategy pairs).keys ↔
        (firstFiled strategy pairs stored).map (·.1) = some stored) ∧
      (∀ others, (ofList strategy pairs).equal (ofList strategy others) = true ↔
        ∀ key, Option.Rel (fun value other : Value => value.equal other = true)
          ((lastFiled strategy pairs key).map (·.2))
          ((lastFiled strategy others key).map (·.2))) ∧
      (∀ others, (∀ key, (lastFiled strategy others key).map (·.2) =
          (lastFiled strategy pairs key).map (·.2)) →
        Interchangeable (ofList strategy others) (ofList strategy pairs) ∧
        ((∀ pair ∈ pairs, pair.2.equal pair.2 = true) →
          (ofList strategy pairs).equal (ofList strategy others) = true)) ∧
      ∀ others, Regrouped strategy pairs others →
        ∀ key, lastFiled strategy others key = lastFiled strategy pairs key := by
  refine ⟨get?_ofList strategy pairs, size_ofList strategy pairs, fun _ => mem_keys_ofList_iff,
    fun _ => equal_ofList_iff, ?_, fun _ regrouped => regrouped.lastFiled_eq⟩
  intro others sameLast
  refine ⟨?_, equal_ofList_of_lastFiled sameLast⟩
  apply (WellFiled.ofList strategy others).interchangeable (.ofList strategy pairs)
  · rw [ofList_strategy, ofList_strategy]
  · intro key
    rw [get?_ofList, get?_ofList, sameLast key]

example : (ofList .hashedCaseInsensitive [("Foo", 1), ("b", 2), ("FOO", 3)]).entries =
    [("Foo", 3), ("b", 2)] := by decide

end ConfTree.Table
