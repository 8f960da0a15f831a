/-
Module: ConfTree.Proofs.Table.Insertion
Purpose: Where the cursor of an insertion stands, and the ways to give a key a value.
Main exports:
  Table.WellFiled.cursorAt_eq, Cursor.OnEntry, Table.insertion_stands_on_entry,
  Cursor.settled, Table.ways_to_set_agree
-/
import ConfTree.Proofs.Table.Enumeration

namespace ConfTree

/-!
The cursor of an insertion is found by a search of its own, behind the insertion.  An ordered
table is entered in front of the first key that is not smaller, the others are walked until a
stored key fits.  That the search ends on the slot of the key takes more than that there is one:
no slot in front of it may look as if it were the one, and each of them must be passed by.  In
an ordered table they are smaller because it is ascending, in the others they differ because no
class is filed twice and the stored keys are in step with the classes.

From there on the position is all that counts.  A write changes the slot where it stands, which
is what changing the value by its key does.
-/

variable {α : Type}

namespace Table

/-! ### The search -/

/-- Whether the search for a key passes by a slot is told by the class under which the slot is
filed. -/
theorem WellFiled.passesBy_iff {table : Table α} (wellFiled : table.WellFiled) {slot : Slot α}
    (isSlot : slot ∈ table.slots) {key : String} :
    passesBy table.strategy key slot = true ↔
      if table.strategy = .ordered then slot.filed < table.strategy.keyClass key
      else slot.filed ≠ table.strategy.keyClass key := by
  have filed := wellFiled.filed slot isSlot
  cases strategy : table.strategy with
  | ordered => simp only [passesBy, Strategy.keyClass, decide_eq_true_eq, if_true]
  | hashed =>
      rw [strategy] at filed
      simp [passesBy, filed, Strategy.keyClass]
  | hashedCaseInsensitive =>
      rw [strategy] at filed
      simp [passesBy, filed, Strategy.keyClass]

/-- The search for a key does not pass by the slot of its class. -/
theorem WellFiled.not_passesBy {table : Table α} (wellFiled : table.WellFiled) {key : String}
    {slot : Slot α} (isSlot : slot ∈ table.slots)
    (filedHere : slot.filed = table.strategy.keyClass key) :
    ¬ passesBy table.strategy key slot = true := by
  rw [wellFiled.passesBy_iff isSlot, filedHere]
  split
  · exact lt_irrefl _
  · exact not_not_intro rfl

/-- The search for a key passes by every slot in front of the slot of its class. -/
theorem WellFiled.passesBy_of_before {table : Table α} (wellFiled : table.WellFiled)
    {before behind : List (Slot α)} {slot : Slot α} {key : String}
    (slots : table.slots = before ++ slot :: behind)
    (filedHere : slot.filed = table.strategy.keyClass key) {other : Slot α}
    (isBefore : other ∈ before) : passesBy table.strategy key other = true := by
  have isSlot : other ∈ table.slots := slots ▸ List.mem_append_left _ isBefore
  rw [wellFiled.passesBy_iff isSlot, ← filedHere]
  split
  case isTrue ordered =>
    have ascending := wellFiled.ascending ordered
    rw [slots, List.pairwise_append] at ascending
    exact ascending.2.2 other isBefore slot List.mem_cons_self
  case isFalse =>
    have distinct := List.pairwise_map.mp wellFiled.distinct
    rw [slots, List.pairwise_append] at distinct
    exact distinct.2.2 other isBefore slot List.mem_cons_self

/-- The search for a key that is found splits the slots at the slot of its class. -/
theorem WellFiled.cursorAt_eq {table : Table α} (wellFiled : table.WellFiled) {key : String}
    {slot : Slot α} (there : table.slot? (table.strategy.keyClass key) = some slot) (owner : Nat) :
    ∃ before behind, table.slots = before ++ slot :: behind ∧
      table.cursorAt key owner =
        ⟨.writable, some (.fetch owner table.strategy before.reverse (slot :: behind))⟩ := by
  obtain ⟨before, behind, slots⟩ := List.append_of_mem (mem_of_slot? there)
  have stops : ¬ passesBy table.strategy key slot = true :=
    wellFiled.not_passesBy (mem_of_slot? there) (filed_of_slot? there)
  have goesOn : ∀ other ∈ before, passesBy table.strategy key other = true :=
    fun other isBefore => wellFiled.passesBy_of_before slots (filed_of_slot? there) isBefore
  have passed : table.slots.takeWhile (passesBy table.strategy key) = before := by
    rw [slots, List.takeWhile_append_of_pos goesOn, List.takeWhile_cons_of_neg stops,
      List.append_nil]
  have ahead : table.slots.dropWhile (passesBy table.strategy key) = slot :: behind := by
    rw [slots, List.dropWhile_append_of_pos goesOn, List.dropWhile_cons_of_neg stops]
  refine ⟨before, behind, slots, ?_⟩
  rw [cursorAt, passed, ahead]

/-- In an ascending list those from a bound on are those that do not fall short of it. -/
theorem dropWhile_eq_filter {slots : List (Slot α)} {bound : String}
    (ascending : slots.Pairwise fun first second => first.filed < second.filed) :
    (slots.dropWhile fun slot => slot.filed < bound) =
      slots.filter fun slot => bound ≤ slot.filed := by
  induction slots with
  | nil => rfl
  | cons slot rest ih =>
      obtain ⟨least, ascendingRest⟩ := List.pairwise_cons.mp ascending
      by_cases short : slot.filed < bound
      · rw [List.dropWhile_cons_of_pos (by simpa using short),
          List.filter_cons_of_neg (by simpa using short), ih ascendingRest]
      · have reaches : bound ≤ slot.filed := not_lt.mp short
        have allReach : ∀ other ∈ slot :: rest, bound ≤ other.filed := by
          intro other isOther
          rcases List.mem_cons.mp isOther with rfl | isOther
          · exact reaches
          · exact reaches.trans (least other isOther).le
        rw [List.dropWhile_cons_of_neg (by simpa using short),
          List.filter_eq_self.mpr (by simpa using allReach)]

/-- In an ordered table the search ends in front of the keys that are not smaller, whether or
not the key is one of them. -/
theorem WellFiled.ahead_cursorAt {table : Table α} (wellFiled : table.WellFiled)
    (ordered : table.strategy = .ordered) (key : String) (owner : Nat) :
    (table.cursorAt key owner).ahead = table.entries.filter fun entry => key ≤ entry.1 := by
  have test : passesBy (α := α) .ordered key = fun slot => decide (slot.filed < key) := rfl
  have sameTest : ∀ slot ∈ table.slots,
      decide (key ≤ slot.filed) = decide (key ≤ slot.entry.1) := by
    intro slot isSlot
    rw [wellFiled.filed slot isSlot, ordered]
    rfl
  calc (table.cursorAt key owner).ahead
      = (table.slots.dropWhile fun slot => slot.filed < key).map Slot.entry := by
        rw [cursorAt, ordered, test]
        simp only [Cursor.ahead, Walk.ahead_fetch]
    _ = (table.slots.filter fun slot => key ≤ slot.entry.1).map Slot.entry := by
        rw [dropWhile_eq_filter (wellFiled.ascending ordered), List.filter_congr sameTest]
    _ = table.entries.filter fun entry => key ≤ entry.1 := by
        rw [entries, List.filter_map]
        rfl

/-! ### Writing -/

/-- To change the value of a key is to change the one slot of its class. -/
theorem WellFiled.modify_eq {table : Table α} (wellFiled : table.WellFiled)
    {before behind : List (Slot α)} {slot : Slot α} {key : String}
    (slots : table.slots = before ++ slot :: behind)
    (filedHere : slot.filed = table.strategy.keyClass key) (change : α → α) :
    table.modify key change =
      ⟨table.strategy, before ++ { slot with value := change slot.value } :: behind⟩ := by
  have apart : slot.filed ∉ (before ++ behind).map (·.filed) := by
    have distinct := wellFiled.distinct
    rw [slots, List.map_append, List.map_cons, List.nodup_middle, List.nodup_cons] at distinct
    rw [List.map_append]
    exact distinct.1
  have unchanged : ∀ part ⊆ before ++ behind, (part.map fun other =>
      if other.filed == table.strategy.keyClass key then
        { other with value := change other.value }
      else other) = part := by
    intro part within
    refine (List.map_congr_left fun other isOther => ?_).trans part.map_id
    apply if_neg
    rw [beq_iff_eq, ← filedHere]
    intro same
    exact apart (same ▸ List.mem_map_of_mem (within isOther))
  rw [modify, slots, List.map_append, List.map_cons, if_pos (beq_iff_eq.mpr filedHere),
    unchanged before (List.subset_append_left before behind),
    unchanged behind (List.subset_append_right before behind)]

/-- A write through the cursor at a key that is found changes the value of the key. -/
theorem WellFiled.write_cursorAt {table : Table α} (wellFiled : table.WellFiled) {key : String}
    {previous : α} (found : table.get? key = some previous) (owner : Nat) (new : α) :
    ∃ written, (table.cursorAt key owner).write new = .ok (previous, written) ∧
      written.table? = some (table.modify key fun _ => new) := by
  obtain ⟨slot, there, rfl⟩ := Option.map_eq_some_iff.mp found
  obtain ⟨before, behind, slots, cursor⟩ := wellFiled.cursorAt_eq there owner
  rw [cursor, wellFiled.modify_eq slots (filed_of_slot? there)]
  refine ⟨_, rfl, ?_⟩
  simp [Cursor.table?, Cursor.moved, Walk.table_fetch]

/-- A walk of a table in which the value of a key was changed shows the new value in the entry of
that key. -/
theorem WellFiled.entries_modify {table : Table α} (wellFiled : table.WellFiled) (key : String)
    (change : α → α) :
    (table.modify key change).entries = table.entries.map fun entry =>
      if table.strategy.keyClass entry.1 = table.strategy.keyClass key then
        (entry.1, change entry.2)
      else entry := by
  rw [entries, entries, modify, List.map_map, List.map_map]
  apply List.map_congr_left
  intro slot isSlot
  have filed : slot.filed = table.strategy.keyClass slot.entry.1 := wellFiled.filed slot isSlot
  simp only [Function.comp_apply]
  rw [filed]
  by_cases same : table.strategy.keyClass slot.entry.1 = table.strategy.keyClass key
  · rw [if_pos same, if_pos (beq_iff_eq.mpr same)]
    rfl
  · rw [if_neg same, if_neg (mt beq_iff_eq.mp same)]

end Table

/-! ### Where an insertion leaves the cursor -/

/-- A cursor over that table that stands on the entry of a key. -/
structure Cursor.OnEntry (table : Table α) (key : String) (value : α) (cursor : Cursor α) :
    Prop where
  isValid : cursor.isValid = true
  not_isEnd : cursor.isEnd = false
  strategy : cursor.strategy? = some table.strategy
  onTable : cursor.table? = some table
  /-- Under the cursor is the one entry whose key is of the class. -/
  current : ∃ stored, cursor.current = .ok (stored, value) ∧
    (table.entries.filter fun entry =>
      table.strategy.keyClass entry.1 = table.strategy.keyClass key) = [(stored, value)]
  /-- A write gives that entry another value and changes nothing else. -/
  write : ∀ new, ∃ written after, cursor.write new = .ok (value, written) ∧
    written.table? = some after ∧ after.strategy = table.strategy ∧
    (after.entries = table.entries.map fun entry =>
      if table.strategy.keyClass entry.1 = table.strategy.keyClass key then (entry.1, new)
      else entry) ∧
    ∀ other, after.get? other =
      if table.strategy.keyClass other = table.strategy.keyClass key then some new
      else table.get? other
  /-- An ordered table is ascending, and the cursor goes on to all keys that are not smaller. -/
  ascending : table.strategy = .ordered →
    (table.entries.Pairwise fun first second => first.1 < second.1) ∧
    cursor.Yields (table.entries.filter fun entry => key ≤ entry.1)

namespace Table

/-- The cursor at a key that is found stands on the entry of the key. -/
theorem WellFiled.onEntry_cursorAt {table : Table α} (wellFiled : table.WellFiled) {key : String}
    {value : α} (found : table.get? key = some value) (owner : Nat) :
    (table.cursorAt key owner).OnEntry table key value := by
  obtain ⟨slot, there, sameValue⟩ := Option.map_eq_some_iff.mp found
  obtain ⟨before, behind, slots, cursor⟩ := wellFiled.cursorAt_eq there owner
  have isEntry : slot.entry ∈ table.entries := List.mem_map_of_mem (mem_of_slot? there)
  have sameClass : table.strategy.keyClass slot.key = table.strategy.keyClass key := by
    rw [← wellFiled.filed slot (mem_of_slot? there), filed_of_slot? there]
  subst sameValue
  constructor
  case isValid => rfl
  case not_isEnd => rw [cursor]; rfl
  case strategy => rw [cursor]; rfl
  case onTable => exact Cursor.table?_cursorAt table key owner
  case current =>
    refine ⟨slot.key, by rw [cursor]; rfl, ?_⟩
    rw [← sameClass]
    exact filter_eq_singleton wellFiled.entries_apart isEntry
  case write =>
    intro new
    obtain ⟨written, answer, onAfter⟩ := wellFiled.write_cursorAt found owner new
    refine ⟨written, _, answer, onAfter, rfl, wellFiled.entries_modify key _, ?_⟩
    intro other
    split
    case isTrue same => rw [get?_modify same, found, Option.map_some]
    case isFalse otherClass => exact get?_modify_of_ne otherClass _
  case ascending =>
    intro ordered
    refine ⟨wellFiled.entries_ascending ordered, ?_⟩
    rw [← wellFiled.ahead_cursorAt ordered key owner]
    exact Cursor.yields_ahead _

theorem insertAt_eq (table : Table α) (key : String) (value : α) (owner : Nat) :
    table.insertAt key value owner =
      ((table.insertIfNew key value).1, (table.insertIfNew key value).2.cursorAt key owner) := rfl

/-- An insertion into a table that can be reached files the value if and only if the key was
absent.  It answers a cursor that, in whichever order the slots are walked after the insertion,
stands on the entry of the key: with the value if it was filed, otherwise with what was there
before.  The other keys have what they had. -/
theorem insertion_stands_on_entry {strategy : Strategy} {past : List KeyEvent}
    {table : Table Value} (reached : Reached strategy past table) (key : String) (value : Value)
    (owner : Nat) :
    ((table.insertAt key value owner).1 = true ↔ table.get? key = none) ∧
    (table.insertAt key value owner).2 = (table.insertIfNew key value).2.cursorAt key owner ∧
    ∀ shown, Rearranged (table.insertIfNew key value).2 shown →
      shown.strategy = strategy ∧
      (∀ other, strategy.keyClass other ≠ strategy.keyClass key →
        shown.get? other = table.get? other) ∧
      (shown.cursorAt key owner).OnEntry shown key ((table.get? key).getD value) := by
  have wellFiled := reached.recorded.wellFiled
  have filedWell := wellFiled.insertIfNew key value
  obtain rfl : table.strategy = strategy := reached.recorded.strategy_eq
  refine ⟨?_, rfl, ?_⟩
  · rw [insertAt_eq, insertIfNew_fst, contains]
    cases table.get? key <;> simp
  · intro shown rearranged
    have strategy : shown.strategy = table.strategy :=
      rearranged.strategy.trans (table.insertIfNew_strategy key value)
    refine ⟨strategy, ?_, ?_⟩
    · intro other otherClass
      rw [rearranged.get?_eq filedWell, wellFiled.get?_insertIfNew, if_neg otherClass]
    · have found : shown.get? key = some ((table.get? key).getD value) := by
        rw [rearranged.get?_eq filedWell, wellFiled.get?_insertIfNew, if_pos rfl]
      exact (rearranged.wellFiled filedWell).onEntry_cursorAt found owner

/-- The key is there in another spelling, so that neither it nor the value is filed. -/
theorem insertion_stands_on_other_spelling :
    let filed := run [.insert "b" .fallback, .insert "Foo" (.integer 1)]
      (.empty .hashedCaseInsensitive)
    Reached .hashedCaseInsensitive [.files "b", .files "Foo"] filed.2 ∧
      (filed.2.insertAt "FOO" (.integer 2) 0).1 = false ∧
      ∃ stored, (filed.2.insertAt "FOO" (.integer 2) 0).2.current = .ok (stored, .integer 1) := by
  have reached : Reached .hashedCaseInsensitive [.files "b", .files "Foo"] _ :=
    (Reached.new.operated (.insert "b" .fallback)).operated (.insert "Foo" (.integer 1))
  obtain ⟨inserted, cursor, stands⟩ :=
    insertion_stands_on_entry reached "FOO" (.integer 2) 0
  obtain ⟨_, _, onEntry⟩ :=
    stands _ (.refl (reached.recorded.wellFiled.insertIfNew "FOO" (.integer 2)))
  obtain ⟨stored, current, _⟩ := onEntry.current
  refine ⟨reached, by decide, stored, ?_⟩
  exact (congrArg Cursor.current cursor).trans current

/-! ### Ways to give a key a value -/

end Table

namespace Cursor

/-- The cursor that an insertion answered, after the value was written through it in case that
nothing was filed. -/
def settled (value : α) : Bool × Cursor α → Except Failure (Cursor α)
  | (true, cursor) => .ok cursor
  | (false, cursor) => (cursor.write value).map (·.2)

end Cursor

namespace Table

/-- An entry that is created and given another value might have been created with it. -/
theorem WellFiled.modify_create {table : Table α} (wellFiled : table.WellFiled) {key : String}
    (absent : table.get? key = none) (first value : α) :
    (table.create key first).modify key (fun _ => value) = table.create key value := by
  have noSlot := get?_eq_none_iff.mp absent
  have sameKeys : SameKeys ((table.create key first).modify key fun _ => value)
      (table.create key value) :=
    (SameKeys.modify _ key _).symm.trans ((SameKeys.refl table).create key first value)
  apply sameKeys.eq_of_get? ((wellFiled.create noSlot first).of_sameKeys (.modify _ key _))
  intro other
  rw [get?, get?, slot?_modify, slot?_create wellFiled noSlot, slot?_create wellFiled noSlot]
  by_cases same : table.strategy.keyClass other = table.strategy.keyClass key
  · simp [same, newSlot]
  · simp [same]

/-- To assign a value is to file it if the key is new, and to change what is there otherwise. -/
theorem assign_snd (table : Table α) (key : String) (value : α) :
    (table.assign key value).2 =
      if (table.insertIfNew key value).1 then (table.insertIfNew key value).2
      else (table.insertIfNew key value).2.modify key fun _ => value := by
  rw [assign, insertIfNew, contains]
  cases table.get? key <;> rfl

theorem WellFiled.modify_getOrInsert {table : Table α} (wellFiled : table.WellFiled)
    (key : String) (fallback value : α) :
    (table.getOrInsert key fallback).2.modify key (fun _ => value) =
      (table.assign key value).2 := by
  rw [getOrInsert, Table.assign]
  cases absent : table.get? key with
  | none => exact wellFiled.modify_create absent fallback value
  | some previous => rfl

/-- A cursor on the entry of a key settles which value it has. -/
theorem WellFiled.settled_cursorAt {table : Table α} (wellFiled : table.WellFiled) {key : String}
    {previous : α} (found : table.get? key = some previous) (owner : Nat) (value : α)
    (inserted : Bool) :
    ∃ cursor, Cursor.settled value (inserted, table.cursorAt key owner) = .ok cursor ∧
      cursor.table? =
        some (if inserted then table else table.modify key fun _ => value) := by
  cases inserted with
  | true => exact ⟨_, rfl, Cursor.table?_cursorAt table key owner⟩
  | false =>
      obtain ⟨written, answer, onAfter⟩ := wellFiled.write_cursorAt found owner value
      refine ⟨written, ?_, onAfter⟩
      rw [Cursor.settled, answer]
      rfl

/-- There are several ways to give a key of a table that can be reached a value, and they leave
the same table behind: the value is assigned; or it is written over what is found under the key,
where a fallback may have to be filed first; or it is inserted and, if something was there,
written through the cursor that the insertion answers, in whichever order the slots are walked
by then.  If something is there it can also be written over as what the key must have. -/
theorem ways_to_set_agree {strategy : Strategy} {past : List KeyEvent} {table : Table Value}
    (reached : Reached strategy past table) (key : String) (value : Value) (owner : Nat) :
    let assigned := ((Operation.assign key value).perform table).2
    ((Operation.getOrInsert key fun _ => value).perform table).2 = assigned ∧
    (∃ cursor, Cursor.settled value (table.insertAt key value owner) = .ok cursor ∧
      cursor.table? = some assigned) ∧
    (∀ shown, Rearranged (table.insertIfNew key value).2 shown → ∃ cursor after,
      Cursor.settled value ((table.insertAt key value owner).1, shown.cursorAt key owner) =
        .ok cursor ∧ cursor.table? = some after ∧ Rearranged assigned after) ∧
    ∀ previous, table.get? key = some previous →
      (Operation.updateAt key fun _ => value).perform table =
        (.required (.ok previous), assigned) := by
  have wellFiled := reached.recorded.wellFiled
  have filedWell := wellFiled.insertIfNew key value
  have found : (table.insertIfNew key value).2.get? key = some ((table.get? key).getD value) := by
    rw [wellFiled.get?_insertIfNew, if_pos rfl]
  refine ⟨wellFiled.modify_getOrInsert key .fallback value, ?_, ?_, ?_⟩
  · rw [Operation.perform, assign_snd]
    exact filedWell.settled_cursorAt found owner value _
  · intro shown rearranged
    have foundShown := (rearranged.get?_eq filedWell key).trans found
    obtain ⟨cursor, settled, onAfter⟩ :=
      (rearranged.wellFiled filedWell).settled_cursorAt foundShown owner value
        (table.insertIfNew key value).1
    refine ⟨cursor, _, settled, onAfter, ?_⟩
    rw [Operation.perform, assign_snd]
    split
    · exact rearranged
    · exact rearranged.modify filedWell key _
  · intro previous there
    rw [Operation.perform, Operation.perform, Table.at, assign, there]

/-- Where the key is there in another spelling, each way keeps that spelling. -/
theorem setting_under_other_spelling :
    let filed := run [.insert "b" .fallback, .insert "Foo" (.integer 1)]
      (.empty .hashedCaseInsensitive)
    let assigned := ((Operation.assign "FOO" (.integer 2)).perform filed.2).2
    Reached .hashedCaseInsensitive [.files "b", .files "Foo"] filed.2 ∧
      assigned.keys = ["b", "Foo"] ∧
      ((Operation.getOrInsert "FOO" fun _ => .integer 2).perform filed.2).2 = assigned ∧
      (∃ cursor,
        Cursor.settled (.integer 2) (filed.2.insertAt "FOO" (.integer 2) 0) = .ok cursor ∧
          cursor.table? = some assigned) ∧
      (Operation.updateAt "FOO" fun _ => .integer 2).perform filed.2 =
        (.required (.ok (.integer 1)), assigned) := by
  have reached : Reached .hashedCaseInsensitive [.files "b", .files "Foo"] _ :=
    (Reached.new.operated (.insert "b" .fallback)).operated (.insert "Foo" (.integer 1))
  obtain ⟨found, inserted, _, required⟩ := ways_to_set_agree reached "FOO" (.integer 2) 0
  exact ⟨reached, by decide, found, inserted, required (.integer 1) rfl⟩

end Table

end ConfTree
