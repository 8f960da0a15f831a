/-
Module: ConfTree.Table.Cursor
Purpose: Cursors that walk the entries of a table and write through to it.
Main exports:
  Cursor, Table.cursor, Table.insertAt, Cursor.current, Cursor.advance,
  Cursor.next, Cursor.write, Cursor.freeze, Cursor.same, Cursor.describe
-/
import ConfTree.Failure
import ConfTree.Text.Escaped

namespace ConfTree

/-!
A valid cursor takes the entries of its table apart into those that it has passed, the
one under it, and those behind that, which it has not fetched yet.  The entry under the
cursor is always fetched in advance; when there is none the cursor is at the end.  Writes
change entries where they stand, so the entries passed and the entries ahead are at any
time the table as it is now.

An invalid cursor walks no table.  It has no entry, and it is not at an end either.

A writable cursor can be frozen: it keeps its position and can no longer write.  What
`next` has handed out for writing before stays open to writes.
-/

/-- Whether a cursor may write. -/
inductive Access where
  | readOnly
  | writable
deriving Repr, DecidableEq

/-- A position between the entries of a table. -/
structure Walk (α : Type) where
  /-- Tells the table that is walked from other tables. -/
  owner : Nat
  strategy : Strategy
  /-- The slots passed, the nearest one first. -/
  passed : List (Slot α)
  /-- The slot under the cursor, which was fetched in advance. -/
  front : Option (Slot α)
  /-- The slots that are still to be fetched, the nearest one first. -/
  rest : List (Slot α)
  /-- At the end nothing is left to be fetched. -/
  exhausted : front = none → rest = []

/-- A cursor, which walks a table unless it is invalid. -/
structure Cursor (α : Type) where
  access : Access
  walk : Option (Walk α)

namespace Walk

variable {α : Type}

/-- The position behind the slots passed, with the first of those to come fetched. -/
def fetch (owner : Nat) (strategy : Strategy) (passed : List (Slot α)) :
    List (Slot α) → Walk α
  | [] => ⟨owner, strategy, passed, none, [], fun _ => rfl⟩
  | slot :: rest =>
      ⟨owner, strategy, passed, some slot, rest,
        fun atEnd => absurd atEnd (Option.some_ne_none slot)⟩

/-- The slots ahead, the nearest one first. -/
def ahead (walk : Walk α) : List (Slot α) := walk.front.toList ++ walk.rest

/-- The table as it is now. -/
def table (walk : Walk α) : Table α :=
  ⟨walk.strategy, walk.passed.reverse ++ walk.ahead⟩

/-- The stored key under the cursor. -/
def key? (walk : Walk α) : Option String := walk.front.map (·.key)

/-- Leave the slot under the cursor behind and fetch the next; the end stays where it is. -/
def forward (walk : Walk α) : Walk α :=
  match walk.front with
  | none => walk
  | some slot => fetch walk.owner walk.strategy (slot :: walk.passed) walk.rest

/-- Give the entry under the cursor a value. -/
def overwrite (walk : Walk α) (value : α) : Walk α :=
  match walk.front with
  | none => walk
  | some slot =>
      ⟨walk.owner, walk.strategy, walk.passed, some { slot with value }, walk.rest,
        fun atEnd => absurd atEnd (Option.some_ne_none _)⟩

/-- Give an entry that was passed a value; the entry passed last has number zero. -/
def overwritePassed (walk : Walk α) (number : Nat) (value : α) : Walk α :=
  { walk with
    passed := walk.passed.modify number fun slot => { slot with value } }

/-- Whether two positions are the same: both at the end, or both on one stored key.
Equal keys of different tables are different keys, but for the empty key, which has
no characters that could be stored in two places. -/
def same (left right : Walk α) : Bool :=
  left.strategy == right.strategy &&
    match left.key?, right.key? with
    | none, none => true
    | some leftKey, some rightKey =>
        leftKey == rightKey && (left.owner == right.owner || leftKey.isEmpty)
    | _, _ => false

/-! What is ahead of a position is the list that it fetches from, the slot under the cursor in
front of the others. -/

@[simp] theorem owner_fetch (owner : Nat) (strategy : Strategy) (passed slots : List (Slot α)) :
    (fetch owner strategy passed slots).owner = owner := by
  cases slots <;> rfl

@[simp] theorem strategy_fetch (owner : Nat) (strategy : Strategy)
    (passed slots : List (Slot α)) :
    (fetch owner strategy passed slots).strategy = strategy := by
  cases slots <;> rfl

@[simp] theorem passed_fetch (owner : Nat) (strategy : Strategy) (passed slots : List (Slot α)) :
    (fetch owner strategy passed slots).passed = passed := by
  cases slots <;> rfl

@[simp] theorem ahead_fetch (owner : Nat) (strategy : Strategy) (passed slots : List (Slot α)) :
    (fetch owner strategy passed slots).ahead = slots := by
  cases slots <;> rfl

@[simp] theorem overwrite_fetch (owner : Nat) (strategy : Strategy) (passed : List (Slot α))
    (slot : Slot α) (rest : List (Slot α)) (value : α) :
    (fetch owner strategy passed (slot :: rest)).overwrite value =
      fetch owner strategy passed ({ slot with value } :: rest) := rfl

theorem head?_ahead (walk : Walk α) : walk.ahead.head? = walk.front := by
  rw [ahead]
  cases front : walk.front with
  | none => rw [walk.exhausted front]; rfl
  | some slot => rfl

theorem tail_ahead (walk : Walk α) : walk.ahead.tail = walk.rest := by
  rw [ahead]
  cases front : walk.front with
  | none => rw [walk.exhausted front]; rfl
  | some slot => rfl

theorem ahead_forward (walk : Walk α) : walk.forward.ahead = walk.ahead.tail := by
  rw [forward, tail_ahead]
  cases front : walk.front with
  | none => rw [ahead, front]; rfl
  | some slot => rw [ahead_fetch]

end Walk

namespace Table

variable {α : Type}

/-- The cursor in front of the first entry. -/
def cursor (table : Table α) (access : Access) (owner : Nat) : Cursor α :=
  ⟨access, some (.fetch owner table.strategy [] table.slots)⟩

/-- Whether the search for a key goes on behind a slot.  An ordered table is entered
at the key; the others are searched for it, by the stored keys. -/
def passesBy (strategy : Strategy) (key : String) (slot : Slot α) : Bool :=
  match strategy with
  | .ordered => slot.filed < key
  | .hashed => slot.key != key
  | .hashedCaseInsensitive => Strategy.foldCase slot.key != Strategy.foldCase key

/-- The writable cursor on the entry of a key. -/
def cursorAt (table : Table α) (key : String) (owner : Nat) : Cursor α :=
  let other := passesBy table.strategy key
  ⟨.writable,
    some (.fetch owner table.strategy (table.slots.takeWhile other).reverse
      (table.slots.dropWhile other))⟩

/-- File a value under a key only if the key has none; answers whether it was filed
and a writable cursor on the entry of the key. -/
def insertAt (table : Table α) (key : String) (value : α) (owner : Nat) :
    Bool × Cursor α :=
  let (inserted, table) := table.insertIfNew key value
  (inserted, table.cursorAt key owner)

end Table

namespace Cursor

variable {α : Type}

/-- The cursor that walks no table. -/
def invalid (access : Access) : Cursor α := ⟨access, none⟩

/-- Whether the cursor walks a table. -/
def isValid (cursor : Cursor α) : Bool := cursor.walk.isSome

/-- Whether the cursor walks a table and has passed all of it. -/
def isEnd (cursor : Cursor α) : Bool :=
  match cursor.walk with
  | none => false
  | some walk => walk.front.isNone

/-- The strategy of the table that is walked. -/
def strategy? (cursor : Cursor α) : Option Strategy := cursor.walk.map (·.strategy)

/-- The entry under the cursor, if there is one. -/
def front? (cursor : Cursor α) : Option (String × α) :=
  match cursor.walk with
  | none => none
  | some walk => walk.front.map Slot.entry

/-- The entries ahead, the one under the cursor first. -/
def ahead (cursor : Cursor α) : List (String × α) :=
  match cursor.walk with
  | none => []
  | some walk => walk.ahead.map Slot.entry

/-- The table that is walked as it is now. -/
def table? (cursor : Cursor α) : Option (Table α) := cursor.walk.map (·.table)

/-- Move the position of a valid cursor. -/
def moved (cursor : Cursor α) (move : Walk α → Walk α) : Cursor α :=
  { cursor with walk := cursor.walk.map move }

/-- The entry under the cursor. -/
def current (cursor : Cursor α) : Except Failure (String × α) :=
  match cursor.front? with
  | none => .error .invalidCursor
  | some entry => .ok entry

/-- The cursor on the next entry; there is none from the end on. -/
def advance (cursor : Cursor α) : Except Failure (Cursor α) :=
  if cursor.isEnd || !cursor.isValid then .error .invalidCursor
  else .ok (cursor.moved Walk.forward)

/-- The entry under the cursor, if there is one, and the cursor behind it. -/
def next (cursor : Cursor α) : Option (String × α) × Cursor α :=
  (cursor.front?, cursor.moved Walk.forward)

/-- Give the entry under the cursor a value; answers the value that it had.  A
cursor that may not write has no entry to write to. -/
def write (cursor : Cursor α) (value : α) : Except Failure (α × Cursor α) :=
  match cursor.access, cursor.front? with
  | .writable, some entry => .ok (entry.2, cursor.moved fun walk => walk.overwrite value)
  | _, _ => .error .invalidCursor

/-- Give an entry a value that `next` has handed out for writing, counted back from the
cursor.  It may have been frozen since. -/
def writePassed (cursor : Cursor α) (number : Nat) (value : α) : Cursor α :=
  cursor.moved fun walk => walk.overwritePassed number value

/-- The cursor at the same position that may no longer write. -/
def freeze (cursor : Cursor α) : Cursor α := { cursor with access := .readOnly }

/-- Whether two cursors are at the same position.  Cursors over tables of different
strategies never are, and an invalid cursor equals the invalid ones only. -/
def same (left right : Cursor α) : Bool :=
  match left.walk, right.walk with
  | none, none => true
  | some left, some right => left.same right
  | _, _ => false

theorem walk_moved {cursor : Cursor α} {walk : Walk α} (here : cursor.walk = some walk)
    (move : Walk α → Walk α) : (cursor.moved move).walk = some (move walk) := by
  rw [moved, here, Option.map_some]

theorem head?_ahead (cursor : Cursor α) : cursor.ahead.head? = cursor.front? := by
  rw [ahead, front?]
  cases cursor.walk with
  | none => rfl
  | some walk => rw [List.head?_map, walk.head?_ahead]

theorem ahead_next (cursor : Cursor α) : cursor.next.2.ahead = cursor.ahead.tail := by
  simp only [ahead, next, moved]
  cases cursor.walk with
  | none => rfl
  | some walk => simp only [Option.map_some, walk.ahead_forward, List.map_tail]

@[simp] theorem ahead_cursor (table : Table α) (access : Access) (owner : Nat) :
    (table.cursor access owner).ahead = table.entries := by
  simp only [ahead, Table.cursor, Walk.ahead_fetch, Table.entries]

/-! ### Diagnostics -/

/-- The name of a strategy in diagnostics. -/
def strategyLabel : Strategy → String
  | .ordered => "Ordered"
  | .hashed => "Hashed"
  | .hashedCaseInsensitive => "HashedCaseInsensitive"

/-- An optional text in diagnostics. -/
def optionLabel : Option String → String
  | none => "None"
  | some content => "Some(" ++ content ++ ")"

/-- The cursor in diagnostics: its access, the strategy and the key under it. -/
def describe (cursor : Cursor α) : String :=
  let name :=
    match cursor.access with
    | .readOnly => "Iter"
    | .writable => "IterMut"
  let key := cursor.front?.map fun entry => Text.escaped entry.1
  name ++ " \x7b strategy: " ++ optionLabel (cursor.strategy?.map strategyLabel) ++
    ", current: " ++ optionLabel key ++ ", .. \x7d"

end Cursor

end ConfTree
