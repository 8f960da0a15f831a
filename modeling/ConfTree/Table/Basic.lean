/-
Module: ConfTree.Table.Basic
Purpose: String-keyed tables that file their keys by a fixed strategy.
Main exports:
  Slot, Table, Table.slot?, Table.get?, Table.assign, Table.insertIfNew,
  Table.getOrInsert, Table.modify, Table.remove, Table.take, Table.ofList
-/
import ConfTree.Strategy

namespace ConfTree

/-!
A table is a strategy together with its slots in the order in which they are
walked.  Under the ordered strategy that is ascending key order; under the other
two it is the order in which the entries were created, which stands for an order
that nobody may rely on.

A slot is filed under the class of a key and holds the key as it was spelled when
the entry was created.  Look-ups go by what a slot is filed under, walks show the
stored key.  Later writes through another spelling of that key change the value
only.

At most one slot is filed under each key class, and always under the class of the
key that it holds.  The type does not carry this as a proof, because tables nest
inside the values that they hold; every operation below preserves it.
-/

/-- An entry of a table as it is filed. -/
structure Slot (α : Type) where
  /-- The key class under which the entry is looked up. -/
  filed : String
  /-- The key under which the entry was created, as it was spelled. -/
  key : String
  value : α
deriving Repr

/-- What a walk shows of a slot. -/
def Slot.entry {α : Type} (slot : Slot α) : String × α := (slot.key, slot.value)

/-- A string-keyed table whose strategy is fixed when it is made. -/
structure Table (α : Type) where
  strategy : Strategy
  /-- The slots in walking order, at most one for each key class. -/
  slots : List (Slot α)
deriving Repr

namespace Table

variable {α : Type}

/-- The table of that strategy without entries. -/
def empty (strategy : Strategy) : Table α := ⟨strategy, []⟩

instance : Inhabited (Table α) := ⟨empty .ordered⟩

/-! ### Looking up -/

/-- The number of entries. -/
def size (table : Table α) : Nat := table.slots.length

/-- Whether there are no entries. -/
def isEmpty (table : Table α) : Bool := table.size == 0

/-- The stored keys and values in walking order. -/
def entries (table : Table α) : List (String × α) := table.slots.map Slot.entry

/-- The stored keys in walking order. -/
def keys (table : Table α) : List String := table.entries.map (·.1)

/-- The values in walking order. -/
def values (table : Table α) : List α := table.entries.map (·.2)

/-- The slot that is filed under a key class. -/
def slot? (table : Table α) (filed : String) : Option (Slot α) :=
  table.slots.find? fun slot => slot.filed == filed

/-- The value filed under the class of a key. -/
def get? (table : Table α) (key : String) : Option α :=
  (table.slot? (table.strategy.keyClass key)).map (·.value)

/-- Whether an entry is filed under the class of a key. -/
def contains (table : Table α) (key : String) : Bool :=
  (table.get? key).isSome

/-- The number of entries filed under the class of a key: none or one. -/
def count (table : Table α) (key : String) : Nat :=
  if table.contains key then 1 else 0

/-! ### Changing -/

/-- File a new slot in front of the first one that is filed under a greater key. -/
def insertSorted (new : Slot α) : List (Slot α) → List (Slot α)
  | [] => [new]
  | slot :: rest =>
      if new.filed < slot.filed then new :: slot :: rest
      else slot :: insertSorted new rest

/-- Create an entry for a key whose class has none yet. -/
def create (table : Table α) (key : String) (value : α) : Table α :=
  let new : Slot α := ⟨table.strategy.keyClass key, key, value⟩
  { table with
    slots :=
      match table.strategy with
      | .ordered => insertSorted new table.slots
      | .hashed | .hashedCaseInsensitive => table.slots ++ [new] }

/-- Change the value filed under the class of a key, if there is one.  The
stored key stays as it is spelled. -/
def modify (table : Table α) (key : String) (change : α → α) : Table α :=
  { table with
    slots := table.slots.map fun slot =>
      if slot.filed == table.strategy.keyClass key then
        { slot with value := change slot.value }
      else slot }

/-- Change every value. -/
def mapValues (table : Table α) (change : α → α) : Table α :=
  { table with slots := table.slots.map fun slot => { slot with value := change slot.value } }

/-- File a value under a key, over an earlier value if there is one; answers the
earlier value. -/
def assign (table : Table α) (key : String) (value : α) : Option α × Table α :=
  match table.get? key with
  | some previous => (some previous, table.modify key fun _ => value)
  | none => (none, table.create key value)

/-- File a value under a key only if the key has none; answers whether it was
filed. -/
def insertIfNew (table : Table α) (key : String) (value : α) : Bool × Table α :=
  if table.contains key then (false, table) else (true, table.create key value)

/-- The value filed under a key, after filing a fallback there if it has none. -/
def getOrInsert (table : Table α) (key : String) (fallback : α) : α × Table α :=
  match table.get? key with
  | some value => (value, table)
  | none => (fallback, table.create key fallback)

/-- Drop the entry of a key; answers the value that it had. -/
def remove (table : Table α) (key : String) : Option α × Table α :=
  (table.get? key,
    { table with
      slots := table.slots.filter fun slot =>
        slot.filed != table.strategy.keyClass key })

/-- Drop the entry of a key; answers whether there was one. -/
def erase (table : Table α) (key : String) : Bool × Table α :=
  ((table.remove key).1.isSome, (table.remove key).2)

/-- Drop every entry. -/
def clear (table : Table α) : Table α := empty table.strategy

/-- Move the entries out, leaving an empty table of the same strategy. -/
def take (table : Table α) : Table α × Table α := (table, table.clear)

/-- File pairs one after the other, a later value over an earlier one. -/
def assignAll (table : Table α) (pairs : List (String × α)) : Table α :=
  pairs.foldl (fun filed pair => (filed.assign pair.1 pair.2).2) table

/-- The table of the given pairs, filed one after the other. -/
def ofList (strategy : Strategy) (pairs : List (String × α)) : Table α :=
  (empty strategy).assignAll pairs

end Table

end ConfTree
