/-
Module: ConfTree.Proofs.Table.Filing
Purpose: What is filed where in a table, and what each operation does to it.
Main exports:
  Table.WellFiled, Table.Rearranged, Table.slot?_modify, Table.slot?_remove,
  Table.slot?_insertIfNew, Table.slot?_assign, Table.WellFiled.ofList_entries
-/
import ConfTree.Table.Basic
import Mathlib.Data.List.Nodup
import Mathlib.Data.String.Basic

namespace ConfTree.Table

/-!
A slot carries its key twice: as it is filed, and as it was spelled.  Look-ups use the
first, walks show the second, and nothing in the type keeps the two in step.  What
does is `WellFiled`: each slot is filed under the class of the key that it holds, no
class is filed twice, and an ordered table is ascending.

Every operation is described by what it does to `slot?`, the slot filed under a
class, and is shown to keep a table well filed.  Other modules use these
descriptions and do not look into the operations again.
-/

variable {α : Type}

/-- The two keys of a slot are in step, no class is filed twice, and an ordered table
is ascending. -/
structure WellFiled (table : Table α) : Prop where
  filed : ∀ slot ∈ table.slots, slot.filed = table.strategy.keyClass slot.key
  distinct : (table.slots.map (·.filed)).Nodup
  ascending : table.strategy = .ordered →
    table.slots.Pairwise fun first second => first.filed < second.filed

theorem WellFiled.empty (strategy : Strategy) : (empty strategy : Table α).WellFiled :=
  ⟨by simp [Table.empty], by simp [Table.empty], by simp [Table.empty]⟩

/-! ### Slots by class -/

theorem mem_of_slot? {table : Table α} {filed : String} {slot : Slot α}
    (found : table.slot? filed = some slot) : slot ∈ table.slots :=
  List.mem_of_find?_eq_some found

theorem filed_of_slot? {table : Table α} {filed : String} {slot : Slot α}
    (found : table.slot? filed = some slot) : slot.filed = filed := by
  simpa using List.find?_some found

theorem slot?_eq_none_iff {table : Table α} {filed : String} :
    table.slot? filed = none ↔ filed ∉ table.slots.map (·.filed) := by
  simp [slot?]

/-- Without a class that is filed twice, each slot is the one that is found. -/
theorem slot?_eq_some_iff {table : Table α}
    (distinct : (table.slots.map (·.filed)).Nodup) {filed : String} {slot : Slot α} :
    table.slot? filed = some slot ↔ slot ∈ table.slots ∧ slot.filed = filed := by
  constructor
  · intro found
    exact ⟨mem_of_slot? found, filed_of_slot? found⟩
  · rintro ⟨member, rfl⟩
    cases found : table.slot? slot.filed with
    | none => exact absurd (List.mem_map_of_mem member) (slot?_eq_none_iff.mp found)
    | some other =>
        have same : other = slot :=
          List.inj_on_of_nodup_map distinct (mem_of_slot? found) member (filed_of_slot? found)
        rw [same]

/-- The order in which slots are walked plays no part in finding them. -/
theorem slot?_of_perm {first second : Table α} (perm : first.slots.Perm second.slots)
    (distinct : (first.slots.map (·.filed)).Nodup) (filed : String) :
    first.slot? filed = second.slot? filed := by
  have distinct' : (second.slots.map (·.filed)).Nodup :=
    (perm.map _).nodup_iff.mp distinct
  apply Option.ext
  intro slot
  rw [slot?_eq_some_iff distinct, slot?_eq_some_iff distinct', perm.mem_iff]

theorem contains_eq_isSome_slot? (table : Table α) (key : String) :
    table.contains key = (table.slot? (table.strategy.keyClass key)).isSome := by
  simp [contains, get?]

theorem get?_eq_none_iff {table : Table α} {key : String} :
    table.get? key = none ↔ table.slot? (table.strategy.keyClass key) = none := by
  simp [get?]

/-- The spelling of a key plays no part in what is found under it. -/
theorem get?_of_keyClass {table : Table α} {key spelling : String}
    (same : table.strategy.keyClass spelling = table.strategy.keyClass key) :
    table.get? spelling = table.get? key := by
  rw [get?, get?, same]

/-- No key is stored twice. -/
theorem WellFiled.distinct_keys {table : Table α} (wellFiled : table.WellFiled) :
    (table.slots.map (·.key)).Nodup := by
  have classes : table.slots.map (·.filed) =
      (table.slots.map (·.key)).map table.strategy.keyClass := by
    rw [List.map_map]
    exact List.map_congr_left wellFiled.filed
  have distinct := wellFiled.distinct
  rw [classes] at distinct
  exact distinct.of_map _

/-! ### Orders of walking

A table that keeps no order may show its slots in another one each time that it is walked.  None
of what is found in it depends on that. -/

/-- One table shows the slots of another one in an order in which they may be walked. -/
structure Rearranged (table shown : Table α) : Prop where
  strategy : shown.strategy = table.strategy
  perm : table.slots.Perm shown.slots
  ascending : shown.strategy = .ordered →
    shown.slots.Pairwise fun first second => first.filed < second.filed

namespace Rearranged

variable {table shown : Table α}

theorem refl (wellFiled : table.WellFiled) : Rearranged table table :=
  ⟨rfl, .refl _, wellFiled.ascending⟩

theorem wellFiled (rearranged : Rearranged table shown) (wellFiled : table.WellFiled) :
    shown.WellFiled := by
  refine ⟨?_, (rearranged.perm.map _).nodup_iff.mp wellFiled.distinct, rearranged.ascending⟩
  intro slot isSlot
  rw [rearranged.strategy]
  exact wellFiled.filed slot (rearranged.perm.mem_iff.mpr isSlot)

/-- The order of walking plays no part in what is found under a key. -/
theorem get?_eq (rearranged : Rearranged table shown) (wellFiled : table.WellFiled)
    (key : String) : shown.get? key = table.get? key := by
  rw [get?, get?, rearranged.strategy, slot?_of_perm rearranged.perm wellFiled.distinct]

/-- An ordered table can be walked in one order only. -/
theorem eq_of_ordered (rearranged : Rearranged table shown) (wellFiled : table.WellFiled)
    (ordered : table.strategy = .ordered) : shown = table := by
  have slots : shown.slots = table.slots :=
    rearranged.perm.symm.eq_of_pairwise
      (fun _ _ _ _ before behind => absurd before behind.not_gt)
      (rearranged.ascending (rearranged.strategy.trans ordered)) (wellFiled.ascending ordered)
  obtain ⟨_, _⟩ := table
  obtain ⟨_, _⟩ := shown
  rw [Table.mk.injEq]
  exact ⟨rearranged.strategy, slots⟩

end Rearranged

/-! ### Creating an entry -/

/-- The slot of an entry that is created under a key. -/
def newSlot (table : Table α) (key : String) (value : α) : Slot α :=
  ⟨table.strategy.keyClass key, key, value⟩

theorem insertSorted_perm (new : Slot α) (slots : List (Slot α)) :
    (insertSorted new slots).Perm (new :: slots) := by
  induction slots with
  | nil => exact .refl _
  | cons slot rest ih =>
      rw [insertSorted]
      split
      · exact .refl _
      · exact (ih.cons slot).trans (.swap new slot rest)

/-- A slot that is filed under a class of its own is put in its place. -/
theorem insertSorted_ascending {new : Slot α} {slots : List (Slot α)}
    (ascending : slots.Pairwise fun first second => first.filed < second.filed)
    (fresh : new.filed ∉ slots.map (·.filed)) :
    (insertSorted new slots).Pairwise fun first second => first.filed < second.filed := by
  induction slots with
  | nil => simp [insertSorted]
  | cons slot rest ih =>
      rcases List.pairwise_cons.mp ascending with ⟨least, ascendingRest⟩
      simp only [List.map_cons, List.mem_cons, not_or] at fresh
      rw [insertSorted]
      split
      case isTrue before =>
        refine List.pairwise_cons.mpr ⟨?_, ascending⟩
        intro other member
        rcases List.mem_cons.mp member with rfl | member
        · exact before
        · exact before.trans (least other member)
      case isFalse notBefore =>
        have after : slot.filed < new.filed :=
          lt_of_le_of_ne (not_lt.mp notBefore) (Ne.symm fresh.1)
        refine List.pairwise_cons.mpr ⟨?_, ih ascendingRest fresh.2⟩
        intro other member
        rcases List.mem_cons.mp ((insertSorted_perm new rest).mem_iff.mp member) with rfl | member
        · exact after
        · exact least other member

@[simp] theorem create_strategy (table : Table α) (key : String) (value : α) :
    (table.create key value).strategy = table.strategy := rfl

theorem create_perm (table : Table α) (key : String) (value : α) :
    (table.create key value).slots.Perm (table.newSlot key value :: table.slots) := by
  rw [create]
  split
  · exact insertSorted_perm _ _
  · exact List.perm_append_singleton _ _
  · exact List.perm_append_singleton _ _

theorem WellFiled.create {table : Table α} (wellFiled : table.WellFiled) {key : String}
    (absent : table.slot? (table.strategy.keyClass key) = none) (value : α) :
    (table.create key value).WellFiled := by
  have fresh := slot?_eq_none_iff.mp absent
  have perm := table.create_perm key value
  refine ⟨?_, ?_, ?_⟩
  · intro slot member
    rcases List.mem_cons.mp (perm.mem_iff.mp member) with rfl | member
    · rfl
    · exact wellFiled.filed slot member
  · refine (perm.map _).nodup_iff.mpr ?_
    exact List.nodup_cons.mpr ⟨fresh, wellFiled.distinct⟩
  · intro ordered
    have strategy : table.strategy = .ordered := ordered
    simp only [Table.create, strategy]
    rw [strategy] at fresh
    exact insertSorted_ascending (wellFiled.ascending strategy) fresh

theorem slot?_create {table : Table α} (wellFiled : table.WellFiled) {key : String}
    (absent : table.slot? (table.strategy.keyClass key) = none) (value : α) (filed : String) :
    (table.create key value).slot? filed =
      if filed = table.strategy.keyClass key then some (table.newSlot key value)
      else table.slot? filed := by
  have perm := table.create_perm key value
  have extended : (table.create key value).slot? filed =
      (⟨table.strategy, table.newSlot key value :: table.slots⟩ : Table α).slot? filed :=
    slot?_of_perm perm (wellFiled.create absent value).distinct filed
  rw [extended]
  by_cases same : filed = table.strategy.keyClass key
  · simp [slot?, newSlot, same]
  · simp [slot?, newSlot, same, Ne.symm same]

/-! ### Changing values -/

@[simp] theorem modify_strategy (table : Table α) (key : String) (change : α → α) :
    (table.modify key change).strategy = table.strategy := rfl

/-- Two tables that differ at most in the values that they hold. -/
def SameKeys (first second : Table α) : Prop :=
  first.strategy = second.strategy ∧
    first.slots.map (fun slot => (slot.filed, slot.key)) =
      second.slots.map fun slot => (slot.filed, slot.key)

theorem SameKeys.map_filed {first second : Table α} (same : SameKeys first second) :
    first.slots.map (·.filed) = second.slots.map (·.filed) := by
  simpa [Function.comp_def] using congrArg (List.map Prod.fst) same.2

/-- Whether a table is well filed does not depend on the values. -/
theorem WellFiled.of_sameKeys {first second : Table α} (wellFiled : first.WellFiled)
    (same : SameKeys first second) : second.WellFiled := by
  refine ⟨?_, ?_, ?_⟩
  · intro slot member
    have shown : (slot.filed, slot.key) ∈
        first.slots.map fun slot => (slot.filed, slot.key) :=
      same.2 ▸ List.mem_map_of_mem member
    rcases List.mem_map.mp shown with ⟨other, otherMember, keys⟩
    rcases Prod.mk.inj keys with ⟨filed, key⟩
    rw [← filed, ← key, ← same.1]
    exact wellFiled.filed other otherMember
  · rw [← same.map_filed]
    exact wellFiled.distinct
  · intro ordered
    have ascending := wellFiled.ascending (same.1.trans ordered)
    rw [← List.pairwise_map (f := fun slot : Slot α => slot.filed)] at ascending ⊢
    rwa [← same.map_filed]

theorem SameKeys.modify (table : Table α) (key : String) (change : α → α) :
    SameKeys table (table.modify key change) := by
  refine ⟨rfl, ?_⟩
  simp only [Table.modify, List.map_map]
  apply List.map_congr_left
  intro slot _
  simp only [Function.comp_apply]
  split <;> rfl

theorem SameKeys.mapValues (table : Table α) (change : α → α) :
    SameKeys table (table.mapValues change) := by
  refine ⟨rfl, ?_⟩
  simp only [Table.mapValues, List.map_map]
  rfl

/-- A change of a value goes through to each order of walking. -/
theorem Rearranged.modify {table shown : Table α} (rearranged : Rearranged table shown)
    (wellFiled : table.WellFiled) (key : String) (change : α → α) :
    Rearranged (table.modify key change) (shown.modify key change) := by
  refine ⟨rearranged.strategy, ?_, ?_⟩
  · rw [Table.modify, Table.modify, rearranged.strategy]
    exact rearranged.perm.map _
  · exact ((rearranged.wellFiled wellFiled).of_sameKeys (.modify shown key change)).ascending

theorem slot?_modify (table : Table α) (key : String) (change : α → α) (filed : String) :
    (table.modify key change).slot? filed =
      (table.slot? filed).map fun slot =>
        if filed = table.strategy.keyClass key then { slot with value := change slot.value }
        else slot := by
  have sameTest : ((fun slot : Slot α => slot.filed == filed) ∘ fun slot =>
      if slot.filed == table.strategy.keyClass key then { slot with value := change slot.value }
      else slot) = fun slot => slot.filed == filed := by
    funext slot
    simp only [Function.comp_apply]
    split <;> rfl
  simp only [slot?, Table.modify, List.find?_map, sameTest]
  cases found : table.slots.find? fun slot => slot.filed == filed with
  | none => rfl
  | some slot =>
      have filedHere : slot.filed = filed := by simpa using List.find?_some found
      simp [filedHere]

/-- What is found under a key whose value was changed. -/
theorem get?_modify {table : Table α} {key spelling : String}
    (same : table.strategy.keyClass spelling = table.strategy.keyClass key)
    (change : α → α) : (table.modify key change).get? spelling = (table.get? key).map change := by
  rw [get?, slot?_modify, modify_strategy, same, get?]
  cases table.slot? (table.strategy.keyClass key) with
  | none => rfl
  | some slot => simp

/-- The keys of other classes have the values that they had. -/
theorem get?_modify_of_ne {table : Table α} {key other : String}
    (otherClass : table.strategy.keyClass other ≠ table.strategy.keyClass key) (change : α → α) :
    (table.modify key change).get? other = table.get? other := by
  simp only [get?, slot?_modify, modify_strategy, if_neg otherClass, Option.map_id']

theorem slot?_mapValues (table : Table α) (change : α → α) (filed : String) :
    (table.mapValues change).slot? filed =
      (table.slot? filed).map fun slot => { slot with value := change slot.value } := by
  simp only [slot?, Table.mapValues, List.find?_map]
  rfl

@[simp] theorem get?_mapValues (table : Table α) (change : α → α) (key : String) :
    (table.mapValues change).get? key = (table.get? key).map change := by
  have filed := table.slot?_mapValues change (table.strategy.keyClass key)
  rw [get?, get?, Option.map_map]
  exact (congrArg _ filed).trans (Option.map_map _ _ _)

@[simp] theorem size_modify (table : Table α) (key : String) (change : α → α) :
    (table.modify key change).size = table.size := by
  simp [size, modify]

/-! ### Dropping entries -/

@[simp] theorem remove_strategy (table : Table α) (key : String) :
    (table.remove key).2.strategy = table.strategy := rfl

theorem WellFiled.remove {table : Table α} (wellFiled : table.WellFiled) (key : String) :
    (table.remove key).2.WellFiled := by
  have sublist : (table.remove key).2.slots.Sublist table.slots := List.filter_sublist
  exact
    ⟨fun slot member => wellFiled.filed slot (sublist.subset member),
      wellFiled.distinct.sublist (sublist.map _),
      fun ordered => (wellFiled.ascending ordered).sublist sublist⟩

theorem slot?_remove (table : Table α) (key filed : String) :
    (table.remove key).2.slot? filed =
      if filed = table.strategy.keyClass key then none else table.slot? filed := by
  simp only [slot?, Table.remove, List.find?_filter]
  by_cases same : filed = table.strategy.keyClass key
  · simp [same]
  · rw [if_neg same]
    congr 1
    funext slot
    by_cases here : slot.filed = filed
    · simp [here, same]
    · simp [here]

/-! ### Filing under a key

The three ways to file under a key create an entry exactly if the class has none.  What
was filed there keeps its slot, whatever the key is spelled like this time. -/

/-- The slot filed under the class of a key, or the one that would be created. -/
def slotOrNew (table : Table α) (key : String) (value : α) : Slot α :=
  (table.slot? (table.strategy.keyClass key)).getD (table.newSlot key value)

@[simp] theorem insertIfNew_strategy (table : Table α) (key : String) (value : α) :
    (table.insertIfNew key value).2.strategy = table.strategy := by
  rw [insertIfNew]
  split <;> rfl

theorem insertIfNew_fst (table : Table α) (key : String) (value : α) :
    (table.insertIfNew key value).1 = !table.contains key := by
  rw [insertIfNew]
  split <;> simp [*]

theorem WellFiled.insertIfNew {table : Table α} (wellFiled : table.WellFiled) (key : String)
    (value : α) : (table.insertIfNew key value).2.WellFiled := by
  rw [Table.insertIfNew]
  split
  case isTrue => exact wellFiled
  case isFalse absent =>
    exact wellFiled.create (by simpa [contains_eq_isSome_slot?] using absent) value

theorem slot?_insertIfNew {table : Table α} (wellFiled : table.WellFiled) (key : String)
    (value : α) (filed : String) :
    (table.insertIfNew key value).2.slot? filed =
      if filed = table.strategy.keyClass key then some (table.slotOrNew key value)
      else table.slot? filed := by
  rw [Table.insertIfNew, contains_eq_isSome_slot?, slotOrNew]
  cases found : table.slot? (table.strategy.keyClass key) with
  | none => simpa using slot?_create wellFiled found value filed
  | some slot =>
      by_cases same : filed = table.strategy.keyClass key
      · simp [same, found]
      · simp [same]

/-- An insertion leaves under the key what was there, or else the value. -/
theorem WellFiled.get?_insertIfNew {table : Table α} (wellFiled : table.WellFiled) (key : String)
    (value : α) (other : String) :
    (table.insertIfNew key value).2.get? other =
      if table.strategy.keyClass other = table.strategy.keyClass key then
        some ((table.get? key).getD value)
      else table.get? other := by
  rw [get?, insertIfNew_strategy, slot?_insertIfNew wellFiled, slotOrNew, get?]
  split
  · cases table.slot? (table.strategy.keyClass key) <;> rfl
  · rfl

@[simp] theorem getOrInsert_strategy (table : Table α) (key : String) (fallback : α) :
    (table.getOrInsert key fallback).2.strategy = table.strategy := by
  rw [getOrInsert]
  split <;> rfl

theorem getOrInsert_fst (table : Table α) (key : String) (fallback : α) :
    (table.getOrInsert key fallback).1 = (table.get? key).getD fallback := by
  rw [getOrInsert]
  split <;> simp [*]

/-- To find or file a fallback leaves the same table behind as to file it if new. -/
theorem getOrInsert_snd (table : Table α) (key : String) (fallback : α) :
    (table.getOrInsert key fallback).2 = (table.insertIfNew key fallback).2 := by
  rw [getOrInsert, insertIfNew, contains]
  cases table.get? key <;> rfl

@[simp] theorem assign_strategy (table : Table α) (key : String) (value : α) :
    (table.assign key value).2.strategy = table.strategy := by
  rw [assign]
  split <;> rfl

theorem assign_fst (table : Table α) (key : String) (value : α) :
    (table.assign key value).1 = table.get? key := by
  rw [assign]
  split <;> simp [*]

theorem WellFiled.assign {table : Table α} (wellFiled : table.WellFiled) (key : String)
    (value : α) : (table.assign key value).2.WellFiled := by
  rw [Table.assign]
  cases found : table.get? key with
  | none => exact wellFiled.create (get?_eq_none_iff.mp found) value
  | some previous => exact wellFiled.of_sameKeys (SameKeys.modify table key _)

theorem slot?_assign {table : Table α} (wellFiled : table.WellFiled) (key : String)
    (value : α) (filed : String) :
    (table.assign key value).2.slot? filed =
      if filed = table.strategy.keyClass key then
        some { table.slotOrNew key value with value }
      else table.slot? filed := by
  rw [Table.assign, get?, slotOrNew]
  cases found : table.slot? (table.strategy.keyClass key) with
  | none => simpa [newSlot] using slot?_create wellFiled found value filed
  | some slot =>
      simp only [Option.map_some, slot?_modify]
      by_cases same : filed = table.strategy.keyClass key
      · simp [same, found]
      · simp [same]

/-! ### Filing pairs one after the other -/

/-- A slot that is filed behind all others is put at the end. -/
theorem insertSorted_last {new : Slot α} {slots : List (Slot α)}
    (last : ∀ slot ∈ slots, slot.filed < new.filed) :
    insertSorted new slots = slots ++ [new] := by
  induction slots with
  | nil => rfl
  | cons slot rest ih =>
      have before : slot.filed < new.filed := last slot List.mem_cons_self
      rw [insertSorted, if_neg before.not_gt,
        ih fun other member => last other (List.mem_cons_of_mem slot member), List.cons_append]

/-- An entry that is created behind all others of a table in walking order. -/
theorem assign_next {strategy : Strategy} {before after : List (Slot α)} {slot : Slot α}
    (wellFiled : WellFiled ⟨strategy, before ++ slot :: after⟩) :
    (assign ⟨strategy, before⟩ slot.key slot.value).2 = ⟨strategy, before ++ [slot]⟩ := by
  have filed : slot.filed = strategy.keyClass slot.key := wellFiled.filed slot (by simp)
  have distinct : ((before ++ slot :: after).map (·.filed)).Nodup := wellFiled.distinct
  have absent : (⟨strategy, before⟩ : Table α).slot? (strategy.keyClass slot.key) = none := by
    rw [slot?_eq_none_iff, ← filed]
    intro present
    rw [List.map_append, List.nodup_append] at distinct
    exact distinct.2.2 _ present slot.filed (by simp) rfl
  have created : (create ⟨strategy, before⟩ slot.key slot.value).slots = before ++ [slot] := by
    have new : (⟨strategy.keyClass slot.key, slot.key, slot.value⟩ : Slot α) = slot := by
      rw [← filed]
    cases strategy with
    | ordered =>
        have ascending := wellFiled.ascending rfl
        rw [List.pairwise_append] at ascending
        rw [Table.create, new]
        exact insertSorted_last fun other member =>
          ascending.2.2 other member slot List.mem_cons_self
    | hashed => rw [Table.create, new]
    | hashedCaseInsensitive => rw [Table.create, new]
  rw [assign, get?_eq_none_iff.mpr absent, ← created]
  rfl

/-- A table is rebuilt from what a walk of it shows. -/
theorem WellFiled.ofList_entries {table : Table α} (wellFiled : table.WellFiled) :
    ofList table.strategy table.entries = table := by
  suffices rebuilt : ∀ before after : List (Slot α),
      WellFiled ⟨table.strategy, before ++ after⟩ →
        assignAll ⟨table.strategy, before⟩ (after.map Slot.entry) =
          ⟨table.strategy, before ++ after⟩ from
    rebuilt [] table.slots wellFiled
  intro before after
  induction after generalizing before with
  | nil => simp [assignAll]
  | cons slot rest ih =>
      intro wellFiled
      rw [List.map_cons, assignAll, List.foldl_cons, Slot.entry, assign_next wellFiled]
      have next := ih (before ++ [slot]) (by simpa using wellFiled)
      rw [assignAll] at next
      simpa using next

end ConfTree.Table
