/-
Module: ConfTree.Proofs.Path.Address
Purpose: The paths of the places inside a value, in all their spellings.
Main exports:
  Value.Countable, Value.Spells, Value.Spells.descends, Value.Spells.edits,
  Value.resolve_spelled
-/
import ConfTree.Proofs.Path.Index
import ConfTree.Proofs.Path.Segments
import ConfTree.Proofs.Table.Pairs
import ConfTree.Proofs.Value.Shape
import ConfTree.Value.Edit

namespace ConfTree

/-!
A chain of steps names a place inside a value by what the value is made of: a slot of a
table, an item at its position, the inside of a box.  A path names it by text, and there is
some choice in that.  Under the strategy that ignores case a key may be spelled like any
other of its class, and an index may be counted from the front or from the back.  Boxes have
no text at all; they are passed through on the way to the next step, so a path can lead
behind a box only if a step follows.

`Value.Spells` says which lists of segments spell a chain, without mention of how paths are
resolved.  No sequence in memory is longer than an index of 64 bits can count, but a list may
be; hence `Value.Countable`.
-/

/-! ### Segments without dots -/

theorem toLower_eq_dot_iff {c : Char} : c.toLower = '.' ↔ c = '.' := by
  delta Char.toLower
  split
  case isTrue capital =>
    constructor
    · intro same
      have value := congrArg Char.val same
      grind
    · rintro rfl
      exact absurd capital (by decide)
  case isFalse => rfl

theorem Strategy.dot_mem_foldCase_iff {key : String} :
    '.' ∈ (foldCase key).toList ↔ '.' ∈ key.toList := by
  simp [foldCase, toLower_eq_dot_iff]

/-- All keys of a class have dots in them, or none has. -/
theorem Strategy.dot_mem_iff_of_keyClass {strategy : Strategy} {key spelling : String}
    (same : strategy.keyClass spelling = strategy.keyClass key) :
    '.' ∈ spelling.toList ↔ '.' ∈ key.toList := by
  cases strategy with
  | ordered | hashed =>
      change spelling = key at same
      rw [same]
  | hashedCaseInsensitive =>
      change foldCase spelling = foldCase key at same
      rw [← dot_mem_foldCase_iff, same, dot_mem_foldCase_iff]

namespace Path

theorem not_dot_mem_toString (index : Int) : '.' ∉ (toString index).toList := by
  cases index with
  | ofNat n => exact not_dot_mem_index n
  | negSucc n =>
      have digits := not_dot_mem_index (n + 1)
      rw [Nat.toString_eq_repr, Nat.toList_repr] at digits
      rw [toList_toString_negSucc]
      simpa using digits

end Path

namespace Value

/-- The sequences in the value are not longer than an index can count. -/
def Countable (value : Value) : Prop :=
  value.Everywhere fun part => ∀ items, part = .sequence items →
    (items.length : Int) ≤ Int64.maxValue.toInt

/-! ### Spellings -/

/-- The steps lead from the first value to the second one, and the segments spell them. -/
inductive Spells : Value → List Step → List String → Value → Prop
  | here (value : Value) : Spells value [] [] value
  /-- A box is passed through in front of a segment. -/
  | inside {inner node : Value} {steps : List Step} {segment : String} {place : List String}
      (further : Spells inner steps (segment :: place) node) :
      Spells (.boxed inner) (.inside :: steps) (segment :: place) node
  /-- A key without dots may be spelled like any other of its class. -/
  | key {table : Table Value} {slot : Slot Value} {node : Value} {steps : List Step}
      {spelling : String} {place : List String} (member : slot ∈ table.slots)
      (dotless : '.' ∉ slot.key.toList)
      (spelled : table.strategy.keyClass spelling = table.strategy.keyClass slot.key)
      (further : Spells slot.value steps place node) :
      Spells (.map table) (.key slot.key :: steps) (spelling :: place) node
  /-- An index is counted from the front or from the back. -/
  | item {items : List Value} {position : Nat} {item node : Value} {steps : List Step}
      {segment : String} {place : List String} (there : items[position]? = some item)
      (spelled : segment = toString (position : Int) ∨
        segment = toString ((position : Int) - items.length))
      (further : Spells item steps place node) :
      Spells (.sequence items) (.item position :: steps) (segment :: place) node

namespace Spells

variable {value node : Value} {steps : List Step} {place : List String}

theorem dotless (spells : Spells value steps place node) :
    ∀ segment ∈ place, '.' ∉ segment.toList := by
  induction spells with
  | here => exact List.forall_mem_nil _
  | inside _ ih => exact ih
  | key _ dotless spelled _ ih =>
      have dotlessSpelling := mt (Strategy.dot_mem_iff_of_keyClass spelled).mp dotless
      exact List.forall_mem_cons.mpr ⟨dotlessSpelling, ih⟩
  | item _ spelled _ ih =>
      refine List.forall_mem_cons.mpr ⟨?_, ih⟩
      rcases spelled with rfl | rfl
      · exact Path.not_dot_mem_toString _
      · exact Path.not_dot_mem_toString _

theorem place_ne_nil (spells : Spells value steps place node) (notNil : steps ≠ []) :
    place ≠ [] := by
  cases spells with
  | here => exact absurd rfl notNil
  | inside => exact List.cons_ne_nil _ _
  | key => exact List.cons_ne_nil _ _
  | item => exact List.cons_ne_nil _ _

end Spells

/-! ### Descending -/

theorem descend_boxed (inner : Value) (segment : String) :
    (boxed inner).descend segment = inner.descend segment := rfl

/-- An entry of a map is found under every spelling of its key. -/
theorem descend_key {table : Table Value} (wellFiled : table.WellFiled) {slot : Slot Value}
    (member : slot ∈ table.slots) {spelling : String}
    (spelled : table.strategy.keyClass spelling = table.strategy.keyClass slot.key) :
    (map table).descend spelling = .ok slot.value := by
  have found : table.get? spelling = some slot.value :=
    (Table.get?_of_keyClass spelled).trans (wellFiled.get?_key member)
  change table.at spelling = .ok slot.value
  rw [Table.at, found]

/-- An item of a sequence is found under both of its indices. -/
theorem descend_item {items : List Value}
    (countable : (items.length : Int) ≤ Int64.maxValue.toInt) {position : Nat} {item : Value}
    (there : items[position]? = some item) {segment : String}
    (spelled : segment = toString (position : Int) ∨
      segment = toString ((position : Int) - items.length)) :
    (sequence items).descend segment = .ok item := by
  change Path.itemAt items segment = .ok item
  rcases spelled with rfl | rfl
  · exact Path.itemAt_front countable there
  · exact Path.itemAt_back countable there

namespace Spells

variable {value node : Value} {steps : List Step} {place : List String}

/-- Descending along the segments leads to where the steps lead. -/
theorem descends (spells : Spells value steps place node) (wellFiled : value.WellFiled)
    (countable : value.Countable) : place.foldlM descend value = .ok node := by
  induction spells with
  | here value => rfl
  | inside further ih =>
      rw [List.foldlM_cons, descend_boxed, ← List.foldlM_cons]
      exact ih wellFiled.inner countable.inner
  | key member _ spelled _ ih =>
      rw [List.foldlM_cons, descend_key (wellFiled.self _ rfl) member spelled]
      exact ih (wellFiled.entry member) (countable.entry member)
  | item there spelled _ ih =>
      have member := List.mem_of_getElem? there
      rw [List.foldlM_cons, descend_item (countable.self _ rfl) there spelled]
      exact ih (wellFiled.item member) (countable.item member)

/-- To write along the steps is to change what the segments lead to. -/
theorem edits (spells : Spells value steps place node) (wellFiled : value.WellFiled)
    (countable : value.Countable) (new : Value) :
    ∃ after, value.edit (fun _ => .ok new) steps = .ok (node, after) ∧
      place.foldlM descend after = .ok new := by
  induction spells with
  | here value => exact ⟨new, rfl, rfl⟩
  | inside further ih =>
      obtain ⟨after, edited, leads⟩ := ih wellFiled.inner countable.inner
      refine ⟨.boxed after, ?_, ?_⟩
      · simp only [edit, child, asBoxed, edited, withChild]
      · rw [List.foldlM_cons, descend_boxed, ← List.foldlM_cons]
        exact leads
  | @key table slot _ steps spelling place member _ spelled _ ih =>
      have tableFiled : table.WellFiled := wellFiled.self _ rfl
      obtain ⟨after, edited, leads⟩ := ih (wellFiled.entry member) (countable.entry member)
      have found : (map table).child (.key slot.key) = .ok slot.value :=
        descend_key tableFiled member rfl
      have written : (map (table.modify slot.key fun _ => after)).descend spelling =
          .ok after := by
        have foundAfter := Table.get?_modify spelled fun _ => after
        rw [tableFiled.get?_key member] at foundAfter
        change Table.at _ spelling = .ok after
        rw [Table.at, foundAfter]
        rfl
      refine ⟨.map (table.modify slot.key fun _ => after), ?_, ?_⟩
      · simp only [edit, found, edited, withChild]
      · rw [List.foldlM_cons, written]
        exact leads
  | @item items position item _ steps segment place there spelled _ ih =>
      have member := List.mem_of_getElem? there
      have itemsCountable := countable.self _ rfl
      obtain ⟨after, edited, leads⟩ := ih (wellFiled.item member) (countable.item member)
      have found : (sequence items).child (.item position) = .ok item := by
        simp [child, asSequence, there, bind, Except.bind]
      have written : (sequence (items.set position after)).descend segment = .ok after := by
        have below : position < items.length := (List.getElem?_eq_some_iff.mp there).1
        apply descend_item
        · rw [List.length_set]
          exact itemsCountable
        · exact List.getElem?_set_self below
        · rw [List.length_set]
          exact spelled
      refine ⟨.sequence (items.set position after), ?_, ?_⟩
      · simp only [edit, found, edited, withChild]
      · rw [List.foldlM_cons, written]
        exact leads

end Spells

/-- A place that a chain of steps leads to, the last one not into a box, has a path: the
segments that spell the chain, joined by dots.  However the keys and indices are spelled,
the path leads to what is in that place, and to whatever is written there afterwards. -/
theorem resolve_spelled {value node : Value} {steps : List Step} {place : List String}
    (wellFiled : value.WellFiled) (countable : value.Countable)
    (spells : Spells value steps place node) (notNil : steps ≠ []) :
    value.resolve (".".intercalate place) = .ok node ∧
      ∀ new, ∃ after, value.edit (fun _ => .ok new) steps = .ok (node, after) ∧
        after.resolve (".".intercalate place) = .ok new := by
  have placeNotNil := spells.place_ne_nil notNil
  have resolved (other : Value) := other.resolve_intercalate placeNotNil spells.dotless
  constructor
  · rw [resolved]
    exact spells.descends wellFiled countable
  · intro new
    obtain ⟨after, edited, leads⟩ := spells.edits wellFiled countable new
    exact ⟨after, edited, (resolved after).trans leads⟩

/-- A sequence in two boxes, filed by the strategy that ignores case. -/
def boxedSlot : Slot Value :=
  ⟨"key", "Key", .boxed (.boxed (.sequence [.integer 10, .sequence [.integer 20]]))⟩

/-- The map that has `boxedSlot` as its only slot. -/
def boxedItems : Value := .map ⟨.hashedCaseInsensitive, [boxedSlot]⟩

/-- An item inside `boxedItems` is found, and written to, under its key in another case and its
indices from either end. -/
theorem resolve_spelled_boxedItems :
    boxedItems.resolve "kEY.-1.0" = .ok (.integer 20) ∧
      ∀ new, ∃ after, boxedItems.edit (fun _ => .ok new)
          [.key "Key", .inside, .inside, .item 1, .item 0] = .ok (.integer 20, after) ∧
        after.resolve "kEY.-1.0" = .ok new := by
  have wellFiled : boxedItems.WellFiled := by
    refine .of_map ?_ ?_
    · rintro table ⟨⟩
      refine ⟨?_, by simp, nofun⟩
      rw [List.forall_mem_singleton]
      show "key" = Strategy.foldCase "Key"
      decide
    · rw [List.forall_mem_singleton]
      refine .of_boxed nofun (.of_boxed nofun (.of_sequence nofun ?_))
      simp only [List.forall_mem_cons]
      refine ⟨.of_scalar rfl nofun, .of_sequence nofun ?_, List.forall_mem_nil _⟩
      rw [List.forall_mem_singleton]
      exact .of_scalar rfl nofun
  have countable : boxedItems.Countable := by
    refine .of_map nofun ?_
    rw [List.forall_mem_singleton]
    refine .of_boxed nofun (.of_boxed nofun (.of_sequence ?_ ?_))
    · rintro items ⟨⟩
      decide
    · simp only [List.forall_mem_cons]
      refine ⟨.of_scalar rfl nofun, .of_sequence ?_ ?_, List.forall_mem_nil _⟩
      · rintro items ⟨⟩
        decide
      · rw [List.forall_mem_singleton]
        exact .of_scalar rfl nofun
  have spells : Spells boxedItems [.key "Key", .inside, .inside, .item 1, .item 0]
      ["kEY", "-1", "0"] (.integer 20) := by
    have member : boxedSlot ∈ (⟨.hashedCaseInsensitive, [boxedSlot]⟩ : Table Value).slots :=
      List.mem_cons_self
    refine .key member (by decide) (by decide) ?_
    refine .inside (.inside (.item rfl (.inr rfl) ?_))
    exact .item rfl (.inl rfl) (.here _)
  exact resolve_spelled wellFiled countable spells (List.cons_ne_nil _ _)

end Value

end ConfTree
