/-
Module: ConfTree.Proofs.Table.Refinement
Purpose: Tables answer as finite maps from key classes to values do.
Main exports:
  Table.contents, Operation, Operation.perform, Operation.onDictionary,
  Operation.perform_refines, Table.run_refines, Table.run_refines_dictionary
-/
import ConfTree.Proofs.Table.Filing
import ConfTree.Value.Access
import Mathlib.Data.Finmap

namespace ConfTree

/-!
A dictionary is a finite map from key classes to values.  It knows neither how the
keys were spelled nor in which order they came.  `Table.contents` forgets the same
about a table, and each operation on a table is matched by one on its dictionary: the
answers correspond, and so do the states afterwards.  By induction this goes on along
every run, so whatever is asked of a table in any run can be read off the dictionary.
-/

/-- A finite map from key classes to values. -/
abbrev Dictionary := Finmap fun _ : String => Value

/-! ### Operations -/

/-- What may be done to a table. -/
inductive Operation where
  /-- File a value only if the key has none. -/
  | insert (key : String) (value : Value)
  /-- File a value over an earlier one. -/
  | assign (key : String) (value : Value)
  /-- Find the value of a key, filing the fallback first if it has none, and write to it. -/
  | getOrInsert (key : String) (change : Value → Value)
  /-- Find the value of a key, if it has one, and write to it. -/
  | update (key : String) (change : Value → Value)
  /-- Find the value that a key must have and write to it. -/
  | updateAt (key : String) (change : Value → Value)
  | remove (key : String)
  | erase (key : String)
  | clear
  | take

/-- What an operation answers, where a whole table is shown as a `σ`. -/
inductive Answer (σ : Type) where
  | nothing
  | flag (truth : Bool)
  | value (found : Value)
  | optional (found : Option Value)
  | required (found : Except Failure Value)
  | whole (taken : σ)

/-- The answer with a whole table shown in another way. -/
def Answer.map {σ τ : Type} (view : σ → τ) : Answer σ → Answer τ
  | .nothing => .nothing
  | .flag truth => .flag truth
  | .value found => .value found
  | .optional found => .optional found
  | .required found => .required found
  | .whole taken => .whole (view taken)

/-- An operation on a table: its answer and the table afterwards. -/
def Operation.perform (operation : Operation) (table : Table Value) :
    Answer (Table Value) × Table Value :=
  match operation with
  | .insert key value =>
      let (filed, table) := table.insertIfNew key value
      (.flag filed, table)
  | .assign key value =>
      let (previous, table) := table.assign key value
      (.optional previous, table)
  | .getOrInsert key change =>
      let (found, table) := table.getOrInsert key .fallback
      (.value found, table.modify key change)
  | .update key change => (.optional (table.get? key), table.modify key change)
  | .updateAt key change => (.required (table.at key), table.modify key change)
  | .remove key =>
      let (removed, table) := table.remove key
      (.optional removed, table)
  | .erase key =>
      let (erased, table) := table.erase key
      (.flag erased, table)
  | .clear => (.nothing, table.clear)
  | .take =>
      let (taken, left) := table.take
      (.whole taken, left)

/-- Operations one after the other: their answers and the table afterwards. -/
def Table.run : List Operation → Table Value → List (Answer (Table Value)) × Table Value
  | [], table => ([], table)
  | operation :: rest, table =>
      let (answer, table) := operation.perform table
      let (answers, table) := Table.run rest table
      (answer :: answers, table)

/-! ### The same on dictionaries -/

namespace Dictionary

/-- The value that a class must have; its absence is blamed on the key as it is
spelled. -/
def find (map : Dictionary) (filed key : String) : Except Failure Value :=
  match map.lookup filed with
  | some value => .ok value
  | none => .error (.keyNotFound key)

/-- Change the value of a class, if it has one. -/
def update (map : Dictionary) (filed : String) (change : Value → Value) : Dictionary :=
  match map.lookup filed with
  | some value => map.insert filed (change value)
  | none => map

theorem lookup_update (map : Dictionary) (filed other : String) (change : Value → Value) :
    (map.update filed change).lookup other =
      (map.lookup other).map fun value => if other = filed then change value else value := by
  unfold update
  by_cases same : other = filed
  · subst same
    cases found : map.lookup other with
    | none => simp [found]
    | some value => simp
  · cases map.lookup filed with
    | none => simp [same]
    | some value => simp [same, Finmap.lookup_insert_of_ne _ same]

end Dictionary

/-- An operation on a dictionary whose classes are formed by a strategy. -/
def Operation.onDictionary (strategy : Strategy) (operation : Operation) (map : Dictionary) :
    Answer (Strategy × Dictionary) × Dictionary :=
  match operation with
  | .insert key value =>
      if strategy.keyClass key ∈ map then (.flag false, map)
      else (.flag true, map.insert (strategy.keyClass key) value)
  | .assign key value =>
      (.optional (map.lookup (strategy.keyClass key)), map.insert (strategy.keyClass key) value)
  | .getOrInsert key change =>
      let found := (map.lookup (strategy.keyClass key)).getD .fallback
      (.value found, map.insert (strategy.keyClass key) (change found))
  | .update key change =>
      (.optional (map.lookup (strategy.keyClass key)), map.update (strategy.keyClass key) change)
  | .updateAt key change =>
      (.required (map.find (strategy.keyClass key) key), map.update (strategy.keyClass key) change)
  | .remove key =>
      (.optional (map.lookup (strategy.keyClass key)), map.erase (strategy.keyClass key))
  | .erase key =>
      (.flag (decide (strategy.keyClass key ∈ map)), map.erase (strategy.keyClass key))
  | .clear => (.nothing, ∅)
  | .take => (.whole (strategy, map), ∅)

/-- Operations on a dictionary one after the other. -/
def Dictionary.run (strategy : Strategy) :
    List Operation → Dictionary → List (Answer (Strategy × Dictionary)) × Dictionary
  | [], map => ([], map)
  | operation :: rest, map =>
      let (answer, map) := operation.onDictionary strategy map
      let (answers, map) := Dictionary.run strategy rest map
      (answer :: answers, map)

/-! ### The dictionary of a table -/

namespace Table

/-- What is filed in a table under which class. -/
def contents (table : Table Value) : Dictionary :=
  (table.slots.map fun slot => (⟨slot.filed, slot.value⟩ : Sigma fun _ : String => Value)).toFinmap

/-- What can be seen of a table without walking it. -/
def view (table : Table Value) : Strategy × Dictionary := (table.strategy, table.contents)

theorem lookup_contents (table : Table Value) (filed : String) :
    table.contents.lookup filed = (table.slot? filed).map (·.value) := by
  rw [contents, Finmap.dlookup_list_toFinmap, slot?]
  induction table.slots with
  | nil => rfl
  | cons slot rest ih =>
      by_cases here : slot.filed = filed
      · subst here
        simp
      · rw [List.map_cons, List.dlookup_cons_ne _ _ (Ne.symm here), ih]
        simp [here]

theorem get?_eq_lookup (table : Table Value) (key : String) :
    table.get? key = table.contents.lookup (table.strategy.keyClass key) :=
  (table.lookup_contents _).symm

theorem contains_eq_mem (table : Table Value) (key : String) :
    table.contains key = decide (table.strategy.keyClass key ∈ table.contents) := by
  rw [contains, get?_eq_lookup, Bool.eq_iff_iff, Finmap.lookup_isSome, decide_eq_true_iff]

theorem at_eq_find (table : Table Value) (key : String) :
    table.at key = table.contents.find (table.strategy.keyClass key) key := by
  rw [Table.at, get?_eq_lookup, Dictionary.find]
  cases table.contents.lookup (table.strategy.keyClass key) <;> rfl

/-- The size counts the classes. -/
theorem size_eq_card {table : Table Value} (wellFiled : table.WellFiled) :
    table.size = table.contents.keys.card := by
  have keys : table.contents.keys = (table.slots.map (·.filed)).toFinset := by
    ext filed
    rw [Finmap.mem_keys, contents, Finmap.mem_list_toFinmap, List.mem_toFinset]
    simp
  rw [keys, List.toFinset_card_of_nodup wellFiled.distinct, List.length_map, size]

theorem contents_assign {table : Table Value} (wellFiled : table.WellFiled) (key : String)
    (value : Value) :
    (table.assign key value).2.contents =
      table.contents.insert (table.strategy.keyClass key) value := by
  apply Finmap.ext_lookup
  intro filed
  rw [lookup_contents, slot?_assign wellFiled]
  by_cases same : filed = table.strategy.keyClass key
  · subst same
    simp
  · rw [if_neg same, Finmap.lookup_insert_of_ne _ same, lookup_contents]

theorem contents_insertIfNew {table : Table Value} (wellFiled : table.WellFiled)
    (key : String) (value : Value) :
    (table.insertIfNew key value).2.contents =
      table.contents.insert (table.strategy.keyClass key) ((table.get? key).getD value) := by
  apply Finmap.ext_lookup
  intro filed
  rw [lookup_contents, slot?_insertIfNew wellFiled]
  by_cases same : filed = table.strategy.keyClass key
  · subst same
    rw [if_pos rfl, Finmap.lookup_insert, get?, slotOrNew]
    cases table.slot? (table.strategy.keyClass key) <;> rfl
  · rw [if_neg same, Finmap.lookup_insert_of_ne _ same, lookup_contents]

theorem contents_modify (table : Table Value) (key : String) (change : Value → Value) :
    (table.modify key change).contents =
      table.contents.update (table.strategy.keyClass key) change := by
  apply Finmap.ext_lookup
  intro filed
  rw [Dictionary.lookup_update, lookup_contents, lookup_contents, slot?_modify, Option.map_map,
    Option.map_map]
  congr 1
  funext slot
  simp only [Function.comp_apply]
  split <;> rfl

theorem contents_remove (table : Table Value) (key : String) :
    (table.remove key).2.contents =
      table.contents.erase (table.strategy.keyClass key) := by
  apply Finmap.ext_lookup
  intro filed
  rw [lookup_contents, slot?_remove]
  by_cases same : filed = table.strategy.keyClass key
  · subst same
    simp
  · rw [if_neg same, Finmap.lookup_erase_ne same, lookup_contents]

end Table

/-! ### Simulation -/

theorem Dictionary.update_insert (map : Dictionary) (filed : String) (value : Value)
    (change : Value → Value) :
    Dictionary.update (map.insert filed value) filed change =
      map.insert filed (change value) := by
  simp [Dictionary.update]

theorem Operation.perform_strategy (operation : Operation) (table : Table Value) :
    (operation.perform table).2.strategy = table.strategy := by
  cases operation <;> simp [Operation.perform, Table.erase, Table.take, Table.clear, Table.empty]

/-- One operation keeps a table well filed. -/
theorem Operation.perform_wellFiled {table : Table Value} (wellFiled : table.WellFiled)
    (operation : Operation) : (operation.perform table).2.WellFiled := by
  cases operation with
  | insert key value => exact wellFiled.insertIfNew key value
  | assign key value => exact wellFiled.assign key value
  | getOrInsert key change =>
      have filed := wellFiled.insertIfNew key .fallback
      rw [← Table.getOrInsert_snd] at filed
      exact filed.of_sameKeys (.modify _ key change)
  | update key change => exact wellFiled.of_sameKeys (.modify table key change)
  | updateAt key change => exact wellFiled.of_sameKeys (.modify table key change)
  | remove key => exact wellFiled.remove key
  | erase key => exact wellFiled.remove key
  | clear => exact .empty table.strategy
  | take => exact .empty table.strategy

/-- One operation on a table and the same on its dictionary: equal answers, and
dictionaries that correspond again. -/
theorem Operation.perform_refines {table : Table Value} (wellFiled : table.WellFiled)
    (operation : Operation) :
    ((operation.perform table).1.map Table.view, (operation.perform table).2.contents) =
      operation.onDictionary table.strategy table.contents := by
  cases operation with
  | insert key value =>
      have contents := Table.contents_insertIfNew wellFiled key value
      by_cases present : table.strategy.keyClass key ∈ table.contents
      · have unchanged : (table.insertIfNew key value).2 = table := by
          simp [Table.insertIfNew, Table.contains_eq_mem, present]
        simp [perform, onDictionary, Answer.map, Table.insertIfNew_fst, Table.contains_eq_mem,
          present, unchanged]
      · rw [Table.get?_eq_lookup, Finmap.lookup_eq_none.mpr present] at contents
        simp [perform, onDictionary, Answer.map, Table.insertIfNew_fst, Table.contains_eq_mem,
          present, contents]
  | assign key value =>
      simp only [perform, onDictionary, Answer.map, Table.assign_fst, Table.get?_eq_lookup,
        Table.contents_assign wellFiled]
  | getOrInsert key change =>
      simp only [perform, onDictionary, Answer.map, Table.getOrInsert_fst, Table.getOrInsert_snd,
        Table.contents_modify, Table.insertIfNew_strategy,
        Table.contents_insertIfNew wellFiled, Dictionary.update_insert, Table.get?_eq_lookup]
  | update key change =>
      simp only [perform, onDictionary, Answer.map, Table.contents_modify, Table.get?_eq_lookup]
  | updateAt key change =>
      simp only [perform, onDictionary, Answer.map, Table.contents_modify, Table.at_eq_find]
  | remove key =>
      rw [onDictionary, ← Table.contents_remove, ← Table.get?_eq_lookup]
      rfl
  | erase key =>
      rw [onDictionary, ← Table.contents_remove, ← Table.contains_eq_mem]
      rfl
  | clear => rfl
  | take => rfl

/-! ### Runs -/

namespace Table

theorem run_strategy (operations : List Operation) (table : Table Value) :
    (run operations table).2.strategy = table.strategy := by
  induction operations generalizing table with
  | nil => rfl
  | cons operation rest ih =>
      exact (ih (operation.perform table).2).trans (operation.perform_strategy table)

theorem run_wellFiled {table : Table Value} (wellFiled : table.WellFiled)
    (operations : List Operation) : (run operations table).2.WellFiled := by
  induction operations generalizing table with
  | nil => exact wellFiled
  | cons operation rest ih => exact ih (operation.perform_wellFiled wellFiled)

/-- A run on a table and the same run on its dictionary: equal answers, and
dictionaries that correspond at the end. -/
theorem run_refines {table : Table Value} (wellFiled : table.WellFiled)
    (operations : List Operation) :
    ((run operations table).1.map (Answer.map view), (run operations table).2.contents) =
      Dictionary.run table.strategy operations table.contents := by
  induction operations generalizing table with
  | nil => rfl
  | cons operation rest ih =>
      have first := operation.perform_refines wellFiled
      have later := ih (operation.perform_wellFiled wellFiled)
      rw [operation.perform_strategy] at later
      rw [Dictionary.run, ← first]
      simp only [run, List.map_cons]
      rw [← later]

theorem isEmpty_iff {table : Table Value} (wellFiled : table.WellFiled) :
    table.isEmpty = true ↔ table.contents = ∅ := by
  rw [isEmpty, size_eq_card wellFiled, beq_iff_eq, Finset.card_eq_zero]
  constructor
  · intro noKeys
    apply Finmap.ext_lookup
    intro filed
    have absent : filed ∉ table.contents := by
      rw [← Finmap.mem_keys, noKeys]
      exact Finset.notMem_empty filed
    rw [Finmap.lookup_eq_none.mpr absent, Finmap.lookup_empty]
  · intro noContents
    rw [noContents, Finmap.keys_empty]

/-- Whatever is done to a table that was empty at first, its answers are those of a
finite map from key classes to values, and afterwards everything that can be asked
about any key agrees with that map.  As the operations are any, this holds after each
step of a longer run. -/
theorem run_refines_dictionary (strategy : Strategy) (operations : List Operation) :
    let outcome := run operations (.empty strategy)
    let expected := Dictionary.run strategy operations ∅
    outcome.1.map (Answer.map view) = expected.1 ∧
      outcome.2.strategy = strategy ∧
      (∀ key,
        outcome.2.get? key = expected.2.lookup (strategy.keyClass key) ∧
          outcome.2.at key = expected.2.find (strategy.keyClass key) key ∧
          outcome.2.contains key = decide (strategy.keyClass key ∈ expected.2) ∧
          outcome.2.count key = if strategy.keyClass key ∈ expected.2 then 1 else 0) ∧
      outcome.2.size = expected.2.keys.card ∧
      (outcome.2.isEmpty = true ↔ expected.2 = ∅) := by
  intro outcome expected
  have refines : (outcome.1.map (Answer.map view), outcome.2.contents) = expected :=
    run_refines (.empty strategy) operations
  have wellFiled : outcome.2.WellFiled := run_wellFiled (.empty strategy) operations
  have sameStrategy : outcome.2.strategy = strategy := run_strategy operations (.empty strategy)
  rw [← refines]
  refine ⟨rfl, sameStrategy, ?_, size_eq_card wellFiled, isEmpty_iff wellFiled⟩
  intro key
  have contains := outcome.2.contains_eq_mem key
  have found := outcome.2.get?_eq_lookup key
  have required := outcome.2.at_eq_find key
  rw [sameStrategy] at contains found required
  refine ⟨found, required, contains, ?_⟩
  simp [count, contains]

end Table

end ConfTree
