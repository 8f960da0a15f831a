/-
Module: ConfTree.Proofs.Table.Spelling
Purpose: Under which spelling a table stores a key, told from what was done to it.
Main exports:
  KeyEvent, Operation.keyEvents, spelling, Table.Reached, Table.stored_keys_of_reached
-/
import ConfTree.Proofs.Table.Refinement
import ConfTree.Proofs.Table.Walking
import ConfTree.Value.Json
import Mathlib.Data.List.DropRight

namespace ConfTree

/-!
Which spelling of a key a table stores depends on the past of the table and not on
what is asked of it later.  The past is a list of key events.  A filing event tells
that some operation would create an entry for the key if there were none; whether it
did so is not part of the event.  Two more events tell that an entry, or all of them,
were dropped.

`spelling` reads the stored key of a class off the past: go back to where the class
was last dropped, or to the beginning, and take the first key of the class that was
filed since.  The main theorem says that each table that can be reached at all stores
exactly these keys, each of them filed under its own class.
-/

/-- What an operation tells about keys, whether or not it changes anything. -/
inductive KeyEvent where
  /-- An entry is created for the key if its class has none. -/
  | files (key : String)
  /-- The entry of the key is dropped if there is one. -/
  | drops (key : String)
  | dropsAll

namespace KeyEvent

/-- Whether a class has no entry after the event, whatever it had before. -/
def empties (strategy : Strategy) (filed : String) : KeyEvent → Bool
  | .files _ => false
  | .drops key => strategy.keyClass key == filed
  | .dropsAll => true

/-- The key of an event that files the class. -/
def filedKey? (strategy : Strategy) (filed : String) : KeyEvent → Option String
  | .files key => if strategy.keyClass key = filed then some key else none
  | .drops _ | .dropsAll => none

end KeyEvent

/-- The first key of a class that was filed after the class was last dropped. -/
def spelling (strategy : Strategy) (past : List KeyEvent) (filed : String) : Option String :=
  (past.rtakeWhile fun event => !event.empties strategy filed).findSome?
    (·.filedKey? strategy filed)

/-- One more event drops the stored key of a class or supplies one where none is. -/
theorem spelling_concat (strategy : Strategy) (past : List KeyEvent) (event : KeyEvent)
    (filed : String) :
    spelling strategy (past ++ [event]) filed =
      if event.empties strategy filed then none
      else (spelling strategy past filed).or (event.filedKey? strategy filed) := by
  rw [spelling, List.rtakeWhile_concat]
  cases event.empties strategy filed with
  | true => simp
  | false =>
      simp only [Bool.not_false, if_true, List.findSome?_append, List.findSome?_singleton,
        Bool.false_eq_true, if_false]
      rfl

/-- Events that do not drop a class leave its stored key alone. -/
theorem spelling_append {strategy : Strategy} {past events : List KeyEvent}
    {filed key : String} (keeps : ∀ event ∈ events, event.empties strategy filed = false)
    (stored : spelling strategy past filed = some key) :
    spelling strategy (past ++ events) filed = some key := by
  induction events generalizing past with
  | nil => simpa using stored
  | cons event rest ih =>
      have next : spelling strategy (past ++ [event]) filed = some key := by
        rw [spelling_concat, keeps event (by simp), stored]
        rfl
      simpa using ih (fun other member => keeps other (by simp [member])) next

/-- What an operation tells about keys. -/
def Operation.keyEvents : Operation → List KeyEvent
  | .insert key _ | .assign key _ | .getOrInsert key _ => [.files key]
  | .update _ _ | .updateAt _ _ => []
  | .remove key | .erase key => [.drops key]
  | .clear | .take => [.dropsAll]

namespace Table

/-- A table of that strategy that stores what its past tells. -/
structure Recorded (strategy : Strategy) (past : List KeyEvent) (table : Table Value) :
    Prop where
  strategy_eq : table.strategy = strategy
  wellFiled : table.WellFiled
  stored : ∀ filed, (table.slot? filed).map (·.key) = spelling strategy past filed

namespace Recorded

variable {strategy : Strategy} {past : List KeyEvent} {table : Table Value}

theorem empty (strategy : Strategy) : Recorded strategy [] (.empty strategy) :=
  ⟨rfl, .empty strategy, fun _ => rfl⟩

theorem of_sameKeys (recorded : Recorded strategy past table) {after : Table Value}
    (same : SameKeys table after) : Recorded strategy past after :=
  ⟨same.1 ▸ recorded.strategy_eq, recorded.wellFiled.of_sameKeys same,
    fun filed => (same.map_key_slot? filed).trans (recorded.stored filed)⟩

/-- Filing a key, in whichever way, is recorded by one event. -/
theorem files (recorded : Recorded strategy past table) (key : String) (value : Value)
    {after : Table Value} (sameStrategy : after.strategy = table.strategy)
    (wellFiled : after.WellFiled)
    (slots : ∀ filed, (after.slot? filed).map (·.key) =
      if filed = table.strategy.keyClass key then some (table.slotOrNew key value).key
      else (table.slot? filed).map (·.key)) :
    Recorded strategy (past ++ [.files key]) after := by
  refine ⟨sameStrategy.trans recorded.strategy_eq, wellFiled, ?_⟩
  intro filed
  rw [slots, spelling_concat, ← recorded.stored, ← recorded.strategy_eq]
  simp only [KeyEvent.empties, KeyEvent.filedKey?, Bool.false_eq_true, if_false]
  by_cases same : filed = table.strategy.keyClass key
  · subst same
    rw [slotOrNew]
    cases table.slot? (table.strategy.keyClass key) with
    | none => simp [newSlot]
    | some slot => simp
  · simp [same, Ne.symm same]

theorem insertIfNew (recorded : Recorded strategy past table) (key : String) (value : Value) :
    Recorded strategy (past ++ [.files key]) (table.insertIfNew key value).2 := by
  refine recorded.files key value (by simp)
    (recorded.wellFiled.insertIfNew key value) ?_
  intro filed
  rw [slot?_insertIfNew recorded.wellFiled]
  split <;> rfl

theorem assign (recorded : Recorded strategy past table) (key : String) (value : Value) :
    Recorded strategy (past ++ [.files key]) (table.assign key value).2 := by
  refine recorded.files key value (by simp)
    (recorded.wellFiled.assign key value) ?_
  intro filed
  rw [slot?_assign recorded.wellFiled]
  split <;> rfl

theorem remove (recorded : Recorded strategy past table) (key : String) :
    Recorded strategy (past ++ [.drops key]) (table.remove key).2 := by
  refine ⟨recorded.strategy_eq, recorded.wellFiled.remove key, ?_⟩
  intro filed
  rw [slot?_remove, spelling_concat, ← recorded.stored, ← recorded.strategy_eq]
  by_cases same : filed = table.strategy.keyClass key
  · simp [KeyEvent.empties, same]
  · simp [KeyEvent.empties, KeyEvent.filedKey?, same, Ne.symm same]

theorem clear (recorded : Recorded strategy past table) :
    Recorded strategy (past ++ [.dropsAll]) table.clear := by
  refine ⟨recorded.strategy_eq, .empty _, ?_⟩
  intro filed
  rw [spelling_concat]
  rfl

/-- Each operation is recorded by what it tells about keys. -/
theorem perform (recorded : Recorded strategy past table) (operation : Operation) :
    Recorded strategy (past ++ operation.keyEvents) (operation.perform table).2 := by
  cases operation with
  | insert key value => exact recorded.insertIfNew key value
  | assign key value => exact recorded.assign key value
  | getOrInsert key change =>
      have filed := recorded.insertIfNew key .fallback
      rw [← getOrInsert_snd] at filed
      exact filed.of_sameKeys (.modify _ key change)
  | update key change =>
      rw [Operation.keyEvents, List.append_nil]
      exact recorded.of_sameKeys (.modify table key change)
  | updateAt key change =>
      rw [Operation.keyEvents, List.append_nil]
      exact recorded.of_sameKeys (.modify table key change)
  | remove key => exact recorded.remove key
  | erase key => exact recorded.remove key
  | clear => exact recorded.clear
  | take => exact recorded.clear

/-- Pairs that are filed one after the other are recorded one after the other. -/
theorem assignAll (recorded : Recorded strategy past table) (pairs : List (String × Value)) :
    Recorded strategy (past ++ pairs.map fun pair => .files pair.1) (table.assignAll pairs) := by
  induction pairs generalizing past table with
  | nil => simpa [Table.assignAll] using recorded
  | cons pair rest ih =>
      simpa [Table.assignAll] using ih (recorded.assign pair.1 pair.2)

theorem ofList (strategy : Strategy) (pairs : List (String × Value)) :
    Recorded strategy (pairs.map fun pair => .files pair.1) (.ofList strategy pairs) := by
  simpa [Table.ofList] using (Recorded.empty strategy).assignAll pairs

/-- The order of an unordered table may change at any time. -/
theorem rearrange (recorded : Recorded strategy past table) (unordered : strategy ≠ .ordered)
    {after : Table Value} (sameStrategy : after.strategy = table.strategy)
    (perm : table.slots.Perm after.slots) : Recorded strategy past after := by
  have strategy_eq := sameStrategy.trans recorded.strategy_eq
  have rearranged : Rearranged table after :=
    ⟨sameStrategy, perm, fun ordered => absurd (strategy_eq.symm.trans ordered) unordered⟩
  refine ⟨strategy_eq, rearranged.wellFiled recorded.wellFiled, ?_⟩
  intro filed
  rw [← slot?_of_perm perm recorded.wellFiled.distinct filed]
  exact recorded.stored filed

end Recorded

/-! ### Documents -/

/-- The members of an object are filed under their names as they are spelled. -/
theorem names_of_convertMembers {strategy : Strategy} {path : String}
    {members : List (String × Json)} {pairs : List (String × Value)}
    (converted : Value.convertMembers strategy path members = .ok pairs) :
    pairs.map (·.1) = members.map (·.1) := by
  induction members generalizing pairs with
  | nil =>
      rw [Value.convertMembers] at converted
      cases converted
      rfl
  | cons member rest ih =>
      rcases member with ⟨name, json⟩
      rw [Value.convertMembers] at converted
      cases head : Value.convert strategy (Value.childPath path name) json with
      | error failure => simp [head] at converted
      | ok value =>
          cases tail : Value.convertMembers strategy path rest with
          | error failure => simp [head, tail] at converted
          | ok values =>
              simp only [head, tail, Except.ok.injEq] at converted
              subst converted
              simp [ih tail]

/-- The table of an object holds the converted members, filed in their order. -/
theorem eq_ofList_of_convert {strategy : Strategy} {path : String}
    {members : List (String × Json)} {table : Table Value}
    (converted : Value.convert strategy path (.object members) = .ok (.map table)) :
    ∃ pairs, Value.convertMembers strategy path members = .ok pairs ∧
      table = .ofList strategy pairs := by
  rw [Value.convert] at converted
  cases inner : Value.convertMembers strategy path members with
  | error failure => simp [inner] at converted
  | ok pairs =>
      simp only [inner, Except.ok.injEq, Value.map.injEq] at converted
      exact ⟨pairs, rfl, converted.symm⟩

theorem Recorded.ofDocument {strategy : Strategy} {path : String}
    {members : List (String × Json)} {table : Table Value}
    (converted : Value.convert strategy path (.object members) = .ok (.map table)) :
    Recorded strategy (members.map fun member => .files member.1) table := by
  rcases eq_ofList_of_convert converted with ⟨pairs, inner, rfl⟩
  have events : (members.map fun member => KeyEvent.files member.1) =
      pairs.map fun pair => .files pair.1 := by
    simpa [Function.comp_def] using
      congrArg (List.map KeyEvent.files) (names_of_convertMembers inner).symm
  rw [events]
  exact .ofList strategy pairs

/-! ### Reachable tables -/

/-- The tables of a strategy that can be reached, each with what its past tells about
keys.  A copy of a table is the table itself, so it has the same past. -/
inductive Reached (strategy : Strategy) : List KeyEvent → Table Value → Prop where
  | new : Reached strategy [] (.empty strategy)
  | ofPairs (pairs : List (String × Value)) :
      Reached strategy (pairs.map fun pair => .files pair.1) (.ofList strategy pairs)
  /-- The table of an object at any place in a document. -/
  | ofDocument {path : String} {members : List (String × Json)} {table : Table Value}
      (converted : Value.convert strategy path (.object members) = .ok (.map table)) :
      Reached strategy (members.map fun member => .files member.1) table
  | operated {past : List KeyEvent} {table : Table Value}
      (before : Reached strategy past table) (operation : Operation) :
      Reached strategy (past ++ operation.keyEvents) (operation.perform table).2
  /-- What is moved out of a table has the past of the table. -/
  | taken {past : List KeyEvent} {table : Table Value}
      (before : Reached strategy past table) : Reached strategy past table.take.1
  /-- A cursor over the table is moved and writes, in any mixture. -/
  | walked {past : List KeyEvent} {table after : Table Value}
      (before : Reached strategy past table) {cursor : Cursor Value}
      (onTable : cursor.table? = some table) (actions : List (Cursor.Action Value))
      (left : (cursor.play actions).table? = some after) : Reached strategy past after
  /-- An unordered table may change its order at any time. -/
  | rearranged {past : List KeyEvent} {table after : Table Value}
      (before : Reached strategy past table) (unordered : strategy ≠ .ordered)
      (sameStrategy : after.strategy = table.strategy) (perm : table.slots.Perm after.slots) :
      Reached strategy past after

theorem Reached.recorded {strategy : Strategy} {past : List KeyEvent} {table : Table Value}
    (reached : Reached strategy past table) : Recorded strategy past table := by
  induction reached with
  | new => exact .empty strategy
  | ofPairs pairs => exact .ofList strategy pairs
  | ofDocument converted => exact .ofDocument converted
  | operated before operation ih => exact ih.perform operation
  | taken before ih => exact ih
  | walked before onTable actions left ih =>
      rcases Cursor.play_sameKeys onTable actions with ⟨after, onAfter, same⟩
      rw [left] at onAfter
      cases onAfter
      exact ih.of_sameKeys same
  | rearranged before unordered sameStrategy perm ih =>
      exact ih.rearrange unordered sameStrategy perm

/-! ### The stored keys -/

/-- In every table that ignores case and that can be reached, each slot is filed under
the folded form of its own key, so no two stored keys differ only in case, and the
stored key of a class is the first one that was filed since the class was last
dropped.  An operation that does not drop the class leaves its stored key alone, and
one that files an absent class stores the key as it spells it. -/
theorem stored_keys_of_reached {past : List KeyEvent} {table : Table Value}
    (reached : Reached .hashedCaseInsensitive past table) :
    (∀ slot ∈ table.slots, slot.filed = Strategy.foldCase slot.key) ∧
      (table.slots.Pairwise fun first second =>
        Strategy.foldCase first.key ≠ Strategy.foldCase second.key) ∧
      (∀ filed, (table.slot? filed).map (·.key) = spelling .hashedCaseInsensitive past filed) ∧
      (∀ (operation : Operation) filed slot, table.slot? filed = some slot →
        (∀ event ∈ operation.keyEvents, event.empties .hashedCaseInsensitive filed = false) →
          ((operation.perform table).2.slot? filed).map (·.key) = some slot.key) ∧
      ∀ (operation : Operation) key, table.slot? (Strategy.foldCase key) = none →
        operation.keyEvents = [.files key] →
          ((operation.perform table).2.slot? (Strategy.foldCase key)).map (·.key) = some key := by
  have recorded := reached.recorded
  have filed : ∀ slot ∈ table.slots, slot.filed = Strategy.foldCase slot.key := by
    intro slot member
    rw [recorded.wellFiled.filed slot member, recorded.strategy_eq, Strategy.keyClass]
  refine ⟨filed, ?_, recorded.stored, ?_, ?_⟩
  · have distinct := List.pairwise_map.mp recorded.wellFiled.distinct
    refine distinct.imp_of_mem ?_
    intro first second firstMember secondMember different same
    apply different
    rw [filed first firstMember, filed second secondMember, same]
  · intro operation filed slot found keeps
    rw [(recorded.perform operation).stored filed]
    apply spelling_append keeps
    rw [← recorded.stored filed, found]
    rfl
  · intro operation key absent events
    have stored := (recorded.perform operation).stored (Strategy.foldCase key)
    rw [events, spelling_concat, ← recorded.stored, absent] at stored
    simpa [KeyEvent.empties, KeyEvent.filedKey?, Strategy.keyClass] using stored

/-- A key that is dropped under one spelling and filed again under another is stored as
it was filed again, and an insertion that fails does not change that. -/
theorem stored_keys_after_refiling :
    let filedAgain := run
      [.insert "Foo" .fallback, .remove "FOO", .assign "fOO" (.integer 1),
        .insert "FOO" (.integer 2)]
      (.empty .hashedCaseInsensitive)
    Reached .hashedCaseInsensitive [.files "Foo", .drops "FOO", .files "fOO", .files "FOO"]
        filedAgain.2 ∧
      (filedAgain.2.slot? "foo").map (·.key) = some "fOO" := by
  have reached : Reached .hashedCaseInsensitive
      [.files "Foo", .drops "FOO", .files "fOO", .files "FOO"] _ :=
    (((Reached.new.operated (.insert "Foo" .fallback)).operated (.remove "FOO")).operated
      (.assign "fOO" (.integer 1))).operated (.insert "FOO" (.integer 2))
  have stored := (stored_keys_of_reached reached).2.2.1 "foo"
  exact ⟨reached, stored.trans (by decide)⟩

end Table

end ConfTree
