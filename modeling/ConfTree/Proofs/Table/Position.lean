/-
Module: ConfTree.Proofs.Table.Position
Purpose: Whatever is asked of a cursor, it answers as a position in the list of entries would.
Main exports:
  Cursor.Call, Cursor.Reply, Cursor.Visit.perform, Cursor.Place.perform, Cursor.Stands,
  Cursor.perform_inStep, Cursor.run_inStep, Cursor.calls_refine_position
-/
import ConfTree.Proofs.Table.Walking

namespace ConfTree

/-!
A cursor keeps the slot under it apart from those that it has still to fetch and from those that
it has passed.  Seen from outside it is less than that: a number, which tells how many entries
were passed, and a list of entries that never changes but for the values written.  `Place` is
such a number together with a log of what was written; its entries are read off the log.

There are two ways to move and two ways to write.  What `next` answers while the cursor may write
is lent out: it can be written to from then on, also when the cursor has moved on or was frozen.
An entry is lent by its position, and the cursor counts back to it from where it is by then.

One call keeps a cursor and a place in step and has the same answer of both, so the same is
true of any sequence of calls.
-/

variable {α : Type}

namespace Cursor

/-! ### Calls -/

/-- What may be asked of a cursor or done with what it has lent out. -/
inductive Call (α : Type) where
  | isValid
  | isEnd
  | strategy
  | current
  | advance
  | next
  /-- Write to the entry under the cursor. -/
  | write (value : α)
  /-- Write to an entry that was lent out; the first one has number zero. -/
  | writeLent (number : Nat) (value : α)
  | freeze

/-- What a call answers. -/
inductive Reply (α : Type) where
  | nothing
  | flag (truth : Bool)
  | strategy (found : Option Strategy)
  | entry (found : Except Failure (String × α))
  | moved (outcome : Except Failure Unit)
  | yielded (found : Option (String × α))
  /-- The value that was written over. -/
  | previous (found : Except Failure α)

/-- A cursor together with what it has lent out, each entry told by its position. -/
structure Visit (α : Type) where
  cursor : Cursor α
  lent : List Nat

/-- The number of entries passed. -/
def passedCount (cursor : Cursor α) : Nat :=
  match cursor.walk with
  | none => 0
  | some walk => walk.passed.length

/-- The position that the next call of `next` lends out: that of an entry, if the cursor may
write. -/
def lends (cursor : Cursor α) : List Nat :=
  match cursor.access, cursor.front? with
  | .writable, some _ => [cursor.passedCount]
  | _, _ => []

namespace Visit

/-- One call: its answer, and the cursor with what is lent out afterwards. -/
def perform (visit : Visit α) : Call α → Reply α × Visit α
  | .isValid => (.flag visit.cursor.isValid, visit)
  | .isEnd => (.flag visit.cursor.isEnd, visit)
  | .strategy => (.strategy visit.cursor.strategy?, visit)
  | .current => (.entry visit.cursor.current, visit)
  | .advance =>
      match visit.cursor.advance with
      | .ok further => (.moved (.ok ()), { visit with cursor := further })
      | .error failure => (.moved (.error failure), visit)
  | .next =>
      let (found, further) := visit.cursor.next
      (.yielded found, ⟨further, visit.lent ++ visit.cursor.lends⟩)
  | .write value =>
      match visit.cursor.write value with
      | .ok (previous, written) => (.previous (.ok previous), { visit with cursor := written })
      | .error failure => (.previous (.error failure), visit)
  | .writeLent number value =>
      match visit.lent[number]? with
      | none => (.nothing, visit)
      | some position =>
          let back := visit.cursor.passedCount - 1 - position
          (.nothing, { visit with cursor := visit.cursor.writePassed back value })
  | .freeze => (.nothing, { visit with cursor := visit.cursor.freeze })

/-- Calls one after the other: their answers, and what the last one leaves. -/
def run : List (Call α) → Visit α → List (Reply α) × Visit α
  | [], visit => ([], visit)
  | call :: rest, visit =>
      let (reply, visit) := visit.perform call
      let (replies, visit) := run rest visit
      (reply :: replies, visit)

end Visit

/-! ### Positions -/

/-- A position in a list of entries, and what was written to the entries so far. -/
structure Place (α : Type) where
  access : Access
  /-- How many entries were passed. -/
  position : Nat
  /-- The positions of the entries that were lent out. -/
  lent : List Nat
  /-- The values written and where, the last one first. -/
  written : List (Nat × α)

/-- The entries, each with the value last written to it if there is one. -/
def shown (entries : List (String × α)) (written : List (Nat × α)) : List (String × α) :=
  entries.mapIdx fun position entry => (entry.1, (written.lookup position).getD entry.2)

namespace Place

/-- The entry at the position, if it is not the end. -/
def entry? (entries : List (String × α)) (place : Place α) : Option (String × α) :=
  (shown entries place.written)[place.position]?

/-- One call at a position in the entries of a table of that strategy. -/
def perform (strategy : Strategy) (entries : List (String × α)) (place : Place α) :
    Call α → Reply α × Place α
  | .isValid => (.flag true, place)
  | .isEnd => (.flag (place.position == entries.length), place)
  | .strategy => (.strategy (some strategy), place)
  | .current =>
      match place.entry? entries with
      | some entry => (.entry (.ok entry), place)
      | none => (.entry (.error .invalidCursor), place)
  | .advance =>
      if place.position < entries.length then
        (.moved (.ok ()), { place with position := place.position + 1 })
      else (.moved (.error .invalidCursor), place)
  | .next =>
      match place.entry? entries with
      | some entry =>
          let lends := match place.access with
            | .writable => [place.position]
            | .readOnly => []
          (.yielded (some entry),
            { place with position := place.position + 1, lent := place.lent ++ lends })
      | none => (.yielded none, place)
  | .write value =>
      match place.access, place.entry? entries with
      | .writable, some entry =>
          (.previous (.ok entry.2),
            { place with written := (place.position, value) :: place.written })
      | _, _ => (.previous (.error .invalidCursor), place)
  | .writeLent number value =>
      match place.lent[number]? with
      | some position => (.nothing, { place with written := (position, value) :: place.written })
      | none => (.nothing, place)
  | .freeze => (.nothing, { place with access := .readOnly })

/-- Calls one after the other at a position. -/
def run (strategy : Strategy) (entries : List (String × α)) :
    List (Call α) → Place α → List (Reply α) × Place α
  | [], place => ([], place)
  | call :: rest, place =>
      let (reply, place) := place.perform strategy entries call
      let (replies, place) := run strategy entries rest place
      (reply :: replies, place)

end Place

end Cursor

/-! ### Lists with one item changed -/

theorem modify_append_left {β : Type} {before : List β} {position : Nat}
    (within : position < before.length) (behind : List β) (change : β → β) :
    (before ++ behind).modify position change = before.modify position change ++ behind := by
  induction before generalizing position with
  | nil => cases within
  | cons first rest ih =>
      cases position with
      | zero => rfl
      | succ position =>
          rw [List.cons_append, List.modify_succ_cons, List.modify_succ_cons,
            ih (Nat.lt_of_succ_lt_succ within), List.cons_append]

theorem modify_length_append {β : Type} (before behind : List β) (item : β) (change : β → β) :
    (before ++ item :: behind).modify before.length change = before ++ change item :: behind :=
  List.modifyTailIdx_add (List.modifyHead change) 0 before (item :: behind)

/-- An item counted from the end is one of the list turned around. -/
theorem reverse_modify {β : Type} {items : List β} {position : Nat}
    (within : position < items.length) (change : β → β) :
    (items.modify (items.length - 1 - position) change).reverse =
      items.reverse.modify position change := by
  apply List.ext_getElem?
  intro index
  rw [List.getElem?_modify]
  by_cases inside : index < items.length
  · have same : items.length - 1 - position = items.length - 1 - index ↔ position = index := by
      omega
    rw [List.getElem?_reverse (by simpa using inside), List.getElem?_reverse inside,
      List.getElem?_modify, List.length_modify]
    simp only [same]
  · have outside : items.length ≤ index := Nat.le_of_not_lt inside
    rw [List.getElem?_eq_none (by simpa using outside),
      List.getElem?_eq_none (by simpa using outside)]
    rfl

theorem map_modify {β γ : Type} (items : List β) (position : Nat) {view : β → γ}
    {change : β → β} {change' : γ → γ} (same : ∀ item, view (change item) = change' (view item)) :
    (items.modify position change).map view = (items.map view).modify position change' := by
  apply List.ext_getElem?
  intro index
  simp only [List.getElem?_map, List.getElem?_modify]
  cases items[index]? with
  | none => rfl
  | some item => by_cases here : position = index <;> simp [here, same]

/-! ### Walks by their number of entries passed -/

namespace Walk

/-- The slot under the cursor is the one behind those passed. -/
theorem front_eq (walk : Walk α) : walk.front = walk.table.slots[walk.passed.length]? := by
  have behind : walk.passed.reverse.length ≤ walk.passed.length := by simp
  rw [← walk.head?_ahead, List.head?_eq_getElem?, table, List.getElem?_append_right behind]
  simp

theorem ahead_eq_drop (walk : Walk α) : walk.ahead = walk.table.slots.drop walk.passed.length := by
  rw [table, List.drop_left' (by simp)]

theorem length_passed_forward {walk : Walk α} {slot : Slot α} (front : walk.front = some slot) :
    walk.forward.passed.length = walk.passed.length + 1 := by
  simp [forward, front]

theorem strategy_forward (walk : Walk α) : walk.forward.strategy = walk.strategy :=
  congrArg Table.strategy walk.table_forward

theorem strategy_overwrite (walk : Walk α) (value : α) :
    (walk.overwrite value).strategy = walk.strategy :=
  (walk.sameKeys_overwrite value).1.symm

theorem passed_overwrite (walk : Walk α) (value : α) :
    (walk.overwrite value).passed = walk.passed := by
  rw [overwrite]
  cases walk.front <;> rfl

/-- A write goes to the entry behind those passed. -/
theorem entries_overwrite (walk : Walk α) (value : α) :
    (walk.overwrite value).table.entries =
      walk.table.entries.modify walk.passed.length fun entry => (entry.1, value) := by
  rw [overwrite]
  cases front : walk.front with
  | none =>
      have atEnd : walk.table.entries.length ≤ walk.passed.length := by
        rw [front_eq, List.getElem?_eq_none_iff] at front
        simpa [Table.entries] using front
      rw [List.modify_eq_self atEnd]
  | some slot =>
      have passed : walk.passed.length = (walk.passed.reverse.map Slot.entry).length := by simp
      simp only [Table.entries, table, ahead, front, Option.toList_some, List.map_append,
        List.singleton_append, List.map_cons]
      rw [passed, modify_length_append]
      rfl

/-- Counted back from the cursor, a write goes to the entry with that many in front of it. -/
theorem entries_overwritePassed {walk : Walk α} {position : Nat}
    (isPassed : position < walk.passed.length) (value : α) :
    (walk.overwritePassed (walk.passed.length - 1 - position) value).table.entries =
      walk.table.entries.modify position fun entry => (entry.1, value) := by
  have within : position < (walk.passed.reverse.map Slot.entry).length := by simpa using isPassed
  have changed : ((walk.passed.modify (walk.passed.length - 1 - position)
        fun slot => { slot with value }).reverse.map Slot.entry) =
      (walk.passed.reverse.map Slot.entry).modify position fun entry => (entry.1, value) := by
    rw [reverse_modify isPassed]
    exact map_modify _ _ fun _ => rfl
  rw [Table.entries, Table.entries, table, table, List.map_append, List.map_append,
    modify_append_left within, ← changed]
  rfl

end Walk

namespace Cursor

theorem shown_nil (entries : List (String × α)) : shown entries [] = entries := by
  apply List.ext_getElem?
  simp [shown]

theorem length_shown (entries : List (String × α)) (written : List (Nat × α)) :
    (shown entries written).length = entries.length := by
  simp [shown]

/-- One more write changes the value at its position. -/
theorem shown_cons (entries : List (String × α)) (written : List (Nat × α)) (position : Nat)
    (value : α) :
    shown entries ((position, value) :: written) =
      (shown entries written).modify position fun entry => (entry.1, value) := by
  apply List.ext_getElem?
  intro index
  rw [List.getElem?_modify, shown, shown, List.getElem?_mapIdx, List.getElem?_mapIdx]
  cases entries[index]? with
  | none => rfl
  | some entry =>
      by_cases here : index = position
      · simp [here]
      · rw [List.lookup_cons, beq_eq_false_iff_ne.mpr here]
        simp [Ne.symm here]

/-! ### Cursors in step with places -/

/-- The cursor is at that place: it has passed so many entries, its table shows what was written,
and what is lent out was passed. -/
structure Stands (strategy : Strategy) (entries : List (String × α)) (visit : Visit α)
    (place : Place α) : Prop where
  access : visit.cursor.access = place.access
  walk : ∃ walk, visit.cursor.walk = some walk ∧ walk.strategy = strategy ∧
    walk.passed.length = place.position ∧ walk.table.entries = shown entries place.written
  lent : visit.lent = place.lent
  passed : ∀ position ∈ place.lent, position < place.position

namespace Stands

variable {strategy : Strategy} {entries : List (String × α)} {visit : Visit α} {place : Place α}

theorem start (table : Table α) (access : Access) (owner : Nat) :
    Stands table.strategy table.entries ⟨table.cursor access owner, []⟩ ⟨access, 0, [], []⟩ := by
  refine ⟨rfl, ⟨_, rfl, ?_, ?_, ?_⟩, rfl, nofun⟩
  · exact Walk.strategy_fetch ..
  · rw [Walk.passed_fetch]
    rfl
  · rw [Walk.table_fetch, shown_nil]
    rfl

/-- Under the cursor is the entry at the position. -/
theorem front? (stands : Stands strategy entries visit place) :
    visit.cursor.front? = place.entry? entries := by
  obtain ⟨walk, here, _, position, shows⟩ := stands.walk
  rw [Cursor.front?, here, Place.entry?, ← shows, ← position, Table.entries, List.getElem?_map,
    ← walk.front_eq]

theorem isValid (stands : Stands strategy entries visit place) : visit.cursor.isValid = true := by
  obtain ⟨walk, here, _⟩ := stands.walk
  rw [Cursor.isValid, here]
  rfl

theorem strategy? (stands : Stands strategy entries visit place) :
    visit.cursor.strategy? = some strategy := by
  obtain ⟨walk, here, sameStrategy, _⟩ := stands.walk
  rw [Cursor.strategy?, here, ← sameStrategy]
  rfl

theorem passedCount (stands : Stands strategy entries visit place) :
    visit.cursor.passedCount = place.position := by
  obtain ⟨walk, here, _, position, _⟩ := stands.walk
  rw [Cursor.passedCount, here, ← position]

theorem position_le (stands : Stands strategy entries visit place) :
    place.position ≤ entries.length := by
  obtain ⟨walk, _, _, position, shows⟩ := stands.walk
  have lengths := congrArg List.length shows
  rw [length_shown, Table.entries, Walk.table, List.length_map, List.length_append,
    List.length_reverse] at lengths
  omega

theorem entry?_eq_none_iff (stands : Stands strategy entries visit place) :
    place.entry? entries = none ↔ place.position = entries.length := by
  rw [Place.entry?, List.getElem?_eq_none_iff, length_shown]
  have within := stands.position_le
  omega

theorem isEnd (stands : Stands strategy entries visit place) :
    visit.cursor.isEnd = (place.position == entries.length) := by
  have front := stands.front?
  obtain ⟨walk, here, _⟩ := stands.walk
  rw [Cursor.front?, here] at front
  rw [Cursor.isEnd, here, Bool.eq_iff_iff, Option.isNone_iff_eq_none, beq_iff_eq,
    ← stands.entry?_eq_none_iff, ← front, Option.map_eq_none_iff]

/-! ### What a call does to both -/

theorem forward (stands : Stands strategy entries visit place) {entry : String × α}
    (there : place.entry? entries = some entry) :
    Stands strategy entries ⟨visit.cursor.moved Walk.forward, visit.lent⟩
      { place with position := place.position + 1 } := by
  have front := stands.front?.trans there
  obtain ⟨walk, here, sameStrategy, position, shows⟩ := stands.walk
  rw [Cursor.front?, here, Option.map_eq_some_iff] at front
  obtain ⟨slot, front, _⟩ := front
  refine ⟨stands.access, ⟨walk.forward, walk_moved here _, ?_, ?_, ?_⟩, stands.lent, ?_⟩
  · rw [walk.strategy_forward, sameStrategy]
  · rw [Walk.length_passed_forward front, position]
  · rw [walk.table_forward, shows]
  · exact fun lent isLent => Nat.lt_succ_of_lt (stands.passed lent isLent)

/-- A cursor at the end of the entries stays there when it is moved forward. -/
theorem moved_forward_of_none (stands : Stands strategy entries visit place)
    (nothing : place.entry? entries = none) : visit.cursor.moved Walk.forward = visit.cursor := by
  have front := stands.front?.trans nothing
  obtain ⟨walk, here, _⟩ := stands.walk
  rw [Cursor.front?, here, Option.map_eq_none_iff] at front
  rw [moved, here, Option.map_some, Walk.forward, front, ← here]

theorem overwrite (stands : Stands strategy entries visit place) (value : α) :
    Stands strategy entries ⟨visit.cursor.moved fun walk => walk.overwrite value, visit.lent⟩
      { place with written := (place.position, value) :: place.written } := by
  obtain ⟨walk, here, sameStrategy, position, shows⟩ := stands.walk
  refine ⟨stands.access, ⟨walk.overwrite value, walk_moved here _, ?_, ?_, ?_⟩, stands.lent,
    stands.passed⟩
  · rw [walk.strategy_overwrite, sameStrategy]
  · rw [walk.passed_overwrite, position]
  · rw [walk.entries_overwrite, shows, position, shown_cons]

theorem writePassed (stands : Stands strategy entries visit place) {position : Nat}
    (isLent : position ∈ place.lent) (value : α) :
    Stands strategy entries
      { visit with
        cursor := visit.cursor.writePassed (visit.cursor.passedCount - 1 - position) value }
      { place with written := (position, value) :: place.written } := by
  have count := stands.passedCount
  obtain ⟨walk, here, sameStrategy, passed, shows⟩ := stands.walk
  have isPassed : position < walk.passed.length := passed ▸ stands.passed position isLent
  refine ⟨stands.access, ⟨walk.overwritePassed (walk.passed.length - 1 - position) value, ?_,
    sameStrategy, ?_, ?_⟩, stands.lent, stands.passed⟩
  · rw [Cursor.writePassed, walk_moved here, count, passed]
  · rw [Walk.overwritePassed, List.length_modify, passed]
  · rw [Walk.entries_overwritePassed isPassed, shows, shown_cons]

/-- A cursor stays in step with its place when an entry that was passed is lent out. -/
theorem lend (stands : Stands strategy entries visit place) {position : Nat}
    (isPassed : position < place.position) :
    Stands strategy entries ⟨visit.cursor, visit.lent ++ [position]⟩
      { place with lent := place.lent ++ [position] } := by
  refine ⟨stands.access, stands.walk, congrArg (· ++ [position]) stands.lent, ?_⟩
  intro other isLent
  rcases List.mem_append.mp isLent with before | new
  · exact stands.passed other before
  · rwa [List.mem_singleton.mp new]

end Stands

/-- Two outcomes of a call: the same answer, and a cursor that is where the place is. -/
def InStep (strategy : Strategy) (entries : List (String × α)) (outcome : Reply α × Visit α)
    (expected : Reply α × Place α) : Prop :=
  outcome.1 = expected.1 ∧ Stands strategy entries outcome.2 expected.2

section

variable {strategy : Strategy} {entries : List (String × α)} {visit : Visit α} {place : Place α}

theorem advance_inStep (stands : Stands strategy entries visit place) :
    InStep strategy entries (visit.perform .advance) (place.perform strategy entries .advance) := by
  have within := stands.position_le
  simp only [Visit.perform, Place.perform, advance, stands.isEnd, stands.isValid]
  cases there : place.entry? entries with
  | none =>
      have atEnd := stands.entry?_eq_none_iff.mp there
      simp only [atEnd, beq_self_eq_true, Bool.true_or, if_true, Nat.lt_irrefl, if_false]
      exact ⟨rfl, stands⟩
  | some entry =>
      have notEnd : place.position ≠ entries.length := by
        rw [ne_eq, ← stands.entry?_eq_none_iff, there]
        exact Option.some_ne_none entry
      have before : place.position < entries.length := Nat.lt_of_le_of_ne within notEnd
      simp only [beq_eq_false_iff_ne.mpr notEnd, Bool.not_true, Bool.or_self,
        Bool.false_eq_true, if_false, if_pos before]
      exact ⟨rfl, stands.forward there⟩

theorem next_inStep (stands : Stands strategy entries visit place) :
    InStep strategy entries (visit.perform .next) (place.perform strategy entries .next) := by
  simp only [Visit.perform, Place.perform, next, lends, stands.front?, stands.access,
    stands.passedCount]
  cases there : place.entry? entries with
  | none =>
      have unmoved := stands.moved_forward_of_none there
      cases place.access <;> exact ⟨rfl, by simpa [unmoved] using stands⟩
  | some entry =>
      have onward := stands.forward there
      cases access : place.access with
      | readOnly => exact ⟨rfl, by simpa [access] using onward⟩
      | writable => exact ⟨rfl, by simpa [access] using onward.lend (Nat.lt_succ_self _)⟩

theorem write_inStep (stands : Stands strategy entries visit place) (value : α) :
    InStep strategy entries (visit.perform (.write value))
      (place.perform strategy entries (.write value)) := by
  have written := stands.overwrite value
  simp only [Visit.perform, Place.perform, write, stands.front?, stands.access]
  cases access : place.access with
  | readOnly => exact ⟨rfl, stands⟩
  | writable =>
      cases there : place.entry? entries with
      | none => exact ⟨rfl, stands⟩
      | some entry => exact ⟨rfl, by simpa only [access] using written⟩

theorem writeLent_inStep (stands : Stands strategy entries visit place) (number : Nat)
    (value : α) :
    InStep strategy entries (visit.perform (.writeLent number value))
      (place.perform strategy entries (.writeLent number value)) := by
  have same : visit.lent[number]? = place.lent[number]? := congrArg (·[number]?) stands.lent
  simp only [Visit.perform, Place.perform, same]
  cases isLent : place.lent[number]? with
  | none => exact ⟨rfl, stands⟩
  | some position => exact ⟨rfl, stands.writePassed (List.mem_of_getElem? isLent) value⟩

/-- One call has the same answer of a cursor and of its place, and keeps them in step. -/
theorem perform_inStep (stands : Stands strategy entries visit place) (call : Call α) :
    InStep strategy entries (visit.perform call) (place.perform strategy entries call) := by
  cases call with
  | isValid => exact ⟨congrArg Reply.flag stands.isValid, stands⟩
  | isEnd => exact ⟨congrArg Reply.flag stands.isEnd, stands⟩
  | strategy => exact ⟨congrArg Reply.strategy stands.strategy?, stands⟩
  | current =>
      simp only [Visit.perform, Place.perform, current, stands.front?]
      cases place.entry? entries <;> exact ⟨rfl, stands⟩
  | advance => exact advance_inStep stands
  | next => exact next_inStep stands
  | write value => exact write_inStep stands value
  | writeLent number value => exact writeLent_inStep stands number value
  | freeze => exact ⟨rfl, rfl, stands.walk, stands.lent, stands.passed⟩

/-- Any number of calls have the same answers of a cursor and its place, and keep them in step. -/
theorem run_inStep (stands : Stands strategy entries visit place) (calls : List (Call α)) :
    (Visit.run calls visit).1 = (Place.run strategy entries calls place).1 ∧
      Stands strategy entries (Visit.run calls visit).2
        (Place.run strategy entries calls place).2 := by
  induction calls generalizing visit place with
  | nil => exact ⟨rfl, stands⟩
  | cons call rest ih =>
      obtain ⟨reply, stillStands⟩ := perform_inStep stands call
      obtain ⟨replies, standsLast⟩ := ih stillStands
      refine ⟨?_, standsLast⟩
      simp only [Visit.run, Place.run, reply, replies]

end

/-! ### The table under the cursor -/

/-- A call does nothing to a cursor that actions cannot do. -/
theorem Visit.exists_actions (visit : Visit α) (call : Call α) :
    ∃ actions, (visit.perform call).2.cursor = visit.cursor.play actions := by
  cases call with
  | isValid | isEnd | strategy | current => exact ⟨[], rfl⟩
  | advance =>
      refine ⟨[.advance], ?_⟩
      simp only [perform, play, List.foldl_cons, List.foldl_nil, act]
      cases visit.cursor.advance <;> rfl
  | next => exact ⟨[.next], rfl⟩
  | write value =>
      refine ⟨[.write value], ?_⟩
      simp only [perform, play, List.foldl_cons, List.foldl_nil, act]
      cases visit.cursor.write value <;> rfl
  | writeLent number value =>
      simp only [perform]
      cases visit.lent[number]? with
      | none => exact ⟨[], rfl⟩
      | some position =>
          exact ⟨[.writePassed (visit.cursor.passedCount - 1 - position) value], rfl⟩
  | freeze => exact ⟨[.freeze], rfl⟩

theorem Visit.run_exists_actions (visit : Visit α) (calls : List (Call α)) :
    ∃ actions, (run calls visit).2.cursor = visit.cursor.play actions := by
  induction calls generalizing visit with
  | nil => exact ⟨[], rfl⟩
  | cons call rest ih =>
      obtain ⟨first, afterFirst⟩ := visit.exists_actions call
      obtain ⟨later, afterAll⟩ := ih (visit.perform call).2
      refine ⟨first ++ later, ?_⟩
      rw [play, List.foldl_append, ← play, ← play, ← afterFirst, ← afterAll]
      rfl

/-! ### Invalid cursors -/

/-- What a call answers of an invalid cursor. -/
def Call.refusal : Call α → Reply α
  | .isValid | .isEnd => .flag false
  | .strategy => .strategy none
  | .current => .entry (.error .invalidCursor)
  | .advance => .moved (.error .invalidCursor)
  | .next => .yielded none
  | .write _ => .previous (.error .invalidCursor)
  | .writeLent _ _ | .freeze => .nothing

/-- An invalid cursor refuses every call, lends nothing out, and stays invalid. -/
theorem perform_invalid (access : Access) (call : Call α) :
    ∃ after, Visit.perform ⟨.invalid access, []⟩ call = (call.refusal, ⟨.invalid after, []⟩) := by
  cases call with
  | freeze => exact ⟨.readOnly, rfl⟩
  | next => cases access <;> exact ⟨_, rfl⟩
  | write value => cases access <;> exact ⟨_, rfl⟩
  | _ => exact ⟨access, rfl⟩

theorem run_invalid (access : Access) (calls : List (Call α)) :
    ∃ after, Visit.run calls ⟨.invalid access, []⟩ =
      (calls.map Call.refusal, ⟨.invalid after, []⟩) := by
  induction calls generalizing access with
  | nil => exact ⟨access, rfl⟩
  | cons call rest ih =>
      obtain ⟨middle, first⟩ := perform_invalid access call
      obtain ⟨after, later⟩ := ih middle
      refine ⟨after, ?_⟩
      simp only [Visit.run, first, later, List.map_cons]

/-- Whatever is asked of a cursor over a table, in whichever order and whether or not it is
frozen on the way, it answers what a position in the list of entries answers that was zero at
first.  Afterwards what is ahead of it are the entries from the position on, with the values
written to them.  The table has the strategy, the classes, the stored keys and the size that it
had, and its entries are those that it had, each with the value last written to it if there is
one.  An invalid cursor refuses every call and stays invalid, also when it is frozen. -/
theorem calls_refine_position :
    (∀ (table : Table α) (access : Access) (owner : Nat) (calls : List (Call α)),
      let visit := Visit.run calls ⟨table.cursor access owner, []⟩
      let place := Place.run table.strategy table.entries calls ⟨access, 0, [], []⟩
      visit.1 = place.1 ∧
        visit.2.cursor.access = place.2.access ∧
        place.2.position ≤ table.size ∧
        visit.2.cursor.ahead = (shown table.entries place.2.written).drop place.2.position ∧
        ∃ after, visit.2.cursor.table? = some after ∧ Table.SameKeys table after ∧
          after.size = table.size ∧ after.entries = shown table.entries place.2.written) ∧
      ∀ (access : Access) (calls : List (Call α)),
        (Visit.run calls ⟨.invalid access, []⟩).1 = calls.map Call.refusal ∧
          (Visit.run calls ⟨.invalid access, []⟩).2.cursor.isValid = false := by
  constructor
  · intro table access owner calls visit place
    obtain ⟨replies, stands⟩ := run_inStep (.start table access owner) calls
    obtain ⟨walk, here, _, position, shows⟩ := stands.walk
    have within : place.2.position ≤ table.entries.length := stands.position_le
    have size : table.entries.length = table.size := List.length_map ..
    refine ⟨replies, stands.access, size ▸ within, ?_, walk.table, ?_, ?_, ?_, shows⟩
    · rw [ahead, here, ← shows, ← position]
      exact (congrArg _ walk.ahead_eq_drop).trans List.map_drop
    · rw [table?, here]
      rfl
    · obtain ⟨actions, played⟩ := Visit.run_exists_actions ⟨table.cursor access owner, []⟩ calls
      obtain ⟨after, onAfter, same⟩ := play_sameKeys (table?_cursor table access owner) actions
      rw [← played, table?, here] at onAfter
      cases onAfter
      exact same
    · rw [← size, ← length_shown table.entries place.2.written, ← shows]
      exact (List.length_map ..).symm
  · intro access calls
    obtain ⟨after, refused⟩ := run_invalid access calls
    rw [refused]
    exact ⟨rfl, rfl⟩

-- The entry that was lent out first is written to when the cursor is frozen and has moved on.
example :
    let table : Table Nat := ⟨.ordered, [⟨"a", "a", 1⟩, ⟨"b", "b", 2⟩, ⟨"c", "c", 3⟩]⟩
    let visit := Visit.run [.next, .advance, .write 4, .freeze, .next, .writeLent 0 5]
      ⟨table.cursor .writable 0, []⟩
    visit.1 = [.yielded (some ("a", 1)), .moved (.ok ()), .previous (.ok 3), .nothing,
        .yielded (some ("c", 4)), .nothing] ∧
      visit.2.cursor.table?.map (·.entries) = some [("a", 5), ("b", 2), ("c", 4)] :=
  ⟨rfl, rfl⟩

end Cursor

end ConfTree
