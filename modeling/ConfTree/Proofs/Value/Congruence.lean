/-
Module: ConfTree.Proofs.Value.Congruence
Purpose: Equal values cannot be told apart by paths, nor equal tables by what is done to them.
Main exports:
  Value.descend_equal, Value.Respects, Answer.Alike, Operation.Fair, Operation.perform_alike,
  Table.run_alike, Value.equal_values_answer_alike
-/
import ConfTree.Proofs.Path.Parts
import ConfTree.Proofs.Table.Equality
import ConfTree.Proofs.Value.Equality

namespace ConfTree

/-!
Equality leaves three things out of account: how a stored key was spelled, in which order the
entries of a table without order are walked, and the sign of a zero.  A look-up along a path
goes by key classes and positions, so from equal values each step leads to equal values or
fails at both for the same reason.  An operation on a table is one on its dictionary, so on
equal tables it has equal answers and leaves equal tables behind; by induction that is so for
every run.

What is written must equal itself, or two tables that were given the same value would differ.
-/

/-! ### What equal values have in common -/

namespace Value

theorem equals_boxed_iff {inner other : Value} :
    (boxed inner).Equals other ↔ ∃ content, other = .boxed content ∧ inner.Equals content := by
  cases other <;> simp [Equals, equal]

theorem equals_sequence_iff {items : List Value} {other : Value} :
    (sequence items).Equals other ↔
      ∃ others, other = .sequence others ∧ List.Forall₂ Equals items others := by
  cases other <;> simp [Equals, equal, equalItems_iff]

theorem equals_map_iff {table : Table Value} {other : Value} :
    (map table).Equals other ↔ ∃ counterpart, other = .map counterpart ∧ table.equal counterpart := by
  cases other <;> simp [Equals, equal, Table.equal]

/-- A scalar equals scalars of its own kind only. -/
theorem Equals.of_scalar {value other : Value} (equal : value.Equals other)
    (scalar : value.isScalar) : other.isScalar ∧ other.kind = value.kind := by
  cases value with
  | boxed | sequence | map => cases scalar
  | text | real | integer | boolean =>
      cases other <;> simp_all [Equals, Value.equal, isScalar, kind]

end Value

namespace Table

variable {table other : Table Value}

theorem get?_alike (sameStrategy : table.strategy = other.strategy)
    (alike : table.contents.Alike other.contents) (key : String) :
    Option.Rel Value.Equals (table.get? key) (other.get? key) := by
  rw [get?_eq_lookup, get?_eq_lookup, sameStrategy]
  exact alike _

theorem contains_alike (sameStrategy : table.strategy = other.strategy)
    (alike : table.contents.Alike other.contents) (key : String) :
    table.contains key = other.contains key := by
  rw [contains_eq_mem, contains_eq_mem, sameStrategy]
  exact decide_eq_decide.mpr (alike.mem_iff _)

/-- A key that must be there is there in both tables or in neither. -/
theorem at_alike (sameStrategy : table.strategy = other.strategy)
    (alike : table.contents.Alike other.contents) (key : String) :
    Path.Agree False Value.Equals (table.at key) (other.at key) := by
  have values := get?_alike sameStrategy alike key
  apply at_agree
  · intro entry there
    cases found : other.get? key with
    | none => simp [there, found] at values
    | some counterpart => exact ⟨counterpart, rfl, by simpa [there, found] using values⟩
  · intro absent
    cases found : other.get? key with
    | none => exact .inl rfl
    | some counterpart => simp [absent, found] at values

end Table

/-! ### Paths -/

namespace Value

/-- A segment leads from equal values to equal values, or fails at both for one reason. -/
theorem descend_equal {value other : Value} (equal : value.Equals other)
    (wellFiled : value.WellFiled) (otherFiled : other.WellFiled) (segment : String) :
    Path.Agree False Equals (value.descend segment) (other.descend segment) := by
  induction value generalizing other with
  | boxed inner ih =>
      obtain ⟨content, rfl, equalContent⟩ := equals_boxed_iff.mp equal
      have inside := ih equalContent wellFiled.inner otherFiled.inner
      exact inside
  | sequence items ih =>
      obtain ⟨others, rfl, equalItems⟩ := equals_sequence_iff.mp equal
      exact Path.itemAt_agree equalItems segment
  | map table ih =>
      obtain ⟨counterpart, rfl, equalTables⟩ := equals_map_iff.mp equal
      have tableFiled := wellFiled.self table rfl
      have counterpartFiled := otherFiled.self counterpart rfl
      obtain ⟨sameStrategy, alike⟩ := (Table.equal_iff tableFiled counterpartFiled).mp equalTables
      exact Table.at_alike sameStrategy alike segment
  | text | real | integer | boolean =>
      obtain ⟨otherScalar, sameKind⟩ := equal.of_scalar rfl
      rw [descend_scalar rfl, descend_scalar otherScalar, sameKind]
      exact .failed _

/-- A path leads from equal values to equal values, or fails at both for one reason. -/
theorem resolve_equal {value other : Value} (equal : value.Equals other)
    (wellFiled : value.WellFiled) (otherFiled : other.WellFiled) (path : String) :
    Path.Agree False Equals (value.resolve path) (other.resolve path) := by
  -- What a step finds is a part of where it starts from, so its tables are well filed again.
  have step : ∀ x y : Value, x.Equals y ∧ x.WellFiled ∧ y.WellFiled → ∀ segment,
      Path.Agree False (fun found counterpart : Value =>
        found.Equals counterpart ∧ found.WellFiled ∧ counterpart.WellFiled)
        (x.descend segment) (y.descend segment) := by
    intro x y both segment
    obtain ⟨equal, wellFiled, otherFiled⟩ := both
    apply (descend_equal equal wellFiled otherFiled segment).and_found
    · exact fun found descends => wellFiled.part (part_of_descend descends)
    · exact fun found descends => otherFiled.part (part_of_descend descends)
  have agree := resolve_agree step ⟨equal, wellFiled, otherFiled⟩ path
  exact agree.imp id fun _ _ together => together.1

end Value

/-! ### Operations -/

/-- A change that does not tell equal values apart. -/
def Value.Respects (change : Value → Value) : Prop :=
  ∀ value other : Value, value.Equals other → (change value).Equals (change other)

/-- To leave a value as it is does not tell equal values apart. -/
theorem Value.respects_id : Respects id := fun _ _ equal => equal

/-- To write one value over whatever is there does not tell equal values apart. -/
theorem Value.respects_const {value : Value} (wellFiled : value.WellFiled)
    (nanFree : value.NaNFree) : Respects fun _ => value :=
  fun _ _ _ => equal_self wellFiled nanFree

/-- What the operation files is without what is not a number, and what it changes it changes
without telling equal values apart. -/
def Operation.Fair : Operation → Prop
  | .insert _ value | .assign _ value => value.WellFiled ∧ value.NaNFree
  | .getOrInsert _ change | .update _ change | .updateAt _ change => Value.Respects change
  | .remove _ | .erase _ | .clear | .take => True

/-- Two answers with equal values in the same places. -/
inductive Answer.Alike {σ τ : Type} (relates : σ → τ → Prop) : Answer σ → Answer τ → Prop
  | nothing : Alike relates .nothing .nothing
  | flag (truth : Bool) : Alike relates (.flag truth) (.flag truth)
  | value {found other : Value} (equal : found.Equals other) :
      Alike relates (.value found) (.value other)
  | optional {found other : Option Value} (equal : Option.Rel Value.Equals found other) :
      Alike relates (.optional found) (.optional other)
  | required {found other : Except Failure Value}
      (agree : Path.Agree False Value.Equals found other) :
      Alike relates (.required found) (.required other)
  | whole {taken : σ} {counterpart : τ} (related : relates taken counterpart) :
      Alike relates (.whole taken) (.whole counterpart)

namespace Dictionary.Alike

variable {first second : Dictionary}

theorem insert (alike : first.Alike second) (filed : String) {value other : Value}
    (equal : value.Equals other) :
    Dictionary.Alike (first.insert filed value) (second.insert filed other) := by
  intro asked
  by_cases same : asked = filed
  · subst same
    rw [Finmap.lookup_insert, Finmap.lookup_insert]
    exact .some equal
  · rw [Finmap.lookup_insert_of_ne _ same, Finmap.lookup_insert_of_ne _ same]
    exact alike asked

theorem erase (alike : first.Alike second) (filed : String) :
    Dictionary.Alike (first.erase filed) (second.erase filed) := by
  intro asked
  by_cases same : asked = filed
  · subst same
    rw [Finmap.lookup_erase, Finmap.lookup_erase]
    exact .none
  · rw [Finmap.lookup_erase_ne same, Finmap.lookup_erase_ne same]
    exact alike asked

theorem update (alike : first.Alike second) (filed : String) {change : Value → Value}
    (respects : Value.Respects change) :
    (first.update filed change).Alike (second.update filed change) := by
  intro asked
  have here := alike asked
  simp only [Dictionary.lookup_update]
  generalize first.lookup asked = value at here ⊢
  generalize second.lookup asked = other at here ⊢
  cases here with
  | none => exact .none
  | some equal =>
      by_cases same : asked = filed
      · simpa [same] using respects _ _ equal
      · simpa [same] using equal

end Dictionary.Alike

theorem rel_getD {α β : Type} {relates : α → β → Prop} {found : Option α}
    {other : Option β} (related : Option.Rel relates found other) {fallback : α}
    {fallback' : β} (fallbacks : relates fallback fallback') :
    relates (found.getD fallback) (other.getD fallback') := by
  cases related with
  | none => exact fallbacks
  | some here => exact here

/-- Two answers about tables that cannot be told apart. -/
abbrev Answer.Equals : Answer (Table Value) → Answer (Table Value) → Prop :=
  Answer.Alike fun taken counterpart => taken.equal counterpart

/-- One and the same operation on two equal tables: equal answers, and equal tables again. -/
theorem Operation.perform_alike {operation : Operation} (fair : operation.Fair)
    {table other : Table Value} (wellFiled : table.WellFiled) (otherFiled : other.WellFiled)
    (equal : table.equal other) :
    (operation.perform table).1.Equals (operation.perform other).1 ∧
      (operation.perform table).2.equal (operation.perform other).2 := by
  obtain ⟨sameStrategy, alike⟩ := (Table.equal_iff wellFiled otherFiled).mp equal
  have values := Table.get?_alike sameStrategy alike
  have equal_of_alike : (operation.perform table).2.contents.Alike
      (operation.perform other).2.contents →
        (operation.perform table).2.equal (operation.perform other).2 := by
    intro alikeAfter
    rw [Table.equal_iff (operation.perform_wellFiled wellFiled)
      (operation.perform_wellFiled otherFiled)]
    exact ⟨by simpa only [operation.perform_strategy], alikeAfter⟩
  have fallbacks : Value.fallback.Equals Value.fallback := by
    simp [Value.Equals, Value.fallback, Value.equal]
  refine And.imp_right equal_of_alike ?_
  cases operation with
  | insert key value =>
      have writes := Value.equal_self fair.1 fair.2
      simp only [perform, Table.insertIfNew_fst, Table.contains_alike sameStrategy alike,
        Table.contents_insertIfNew wellFiled, Table.contents_insertIfNew otherFiled, sameStrategy]
      exact ⟨.flag _, alike.insert _ (rel_getD (values key) writes)⟩
  | assign key value =>
      have writes := Value.equal_self fair.1 fair.2
      simp only [perform, Table.assign_fst, Table.contents_assign wellFiled,
        Table.contents_assign otherFiled, sameStrategy]
      exact ⟨.optional (values key), alike.insert _ writes⟩
  | getOrInsert key change =>
      have found := rel_getD (values key) fallbacks
      simp only [perform, Table.getOrInsert_fst, Table.getOrInsert_snd, Table.contents_modify,
        Table.insertIfNew_strategy, Table.contents_insertIfNew wellFiled,
        Table.contents_insertIfNew otherFiled, sameStrategy]
      exact ⟨.value found, (alike.insert _ found).update _ fair⟩
  | update key change =>
      simp only [perform, Table.contents_modify, sameStrategy]
      exact ⟨.optional (values key), alike.update _ fair⟩
  | updateAt key change =>
      simp only [perform, Table.contents_modify, sameStrategy]
      exact ⟨.required (Table.at_alike sameStrategy alike key), alike.update _ fair⟩
  | remove key =>
      refine ⟨.optional (values key), ?_⟩
      simp only [perform, Table.contents_remove, sameStrategy]
      exact alike.erase _
  | erase key =>
      have erased : (table.remove key).1.isSome = (other.remove key).1.isSome :=
        Table.contains_alike sameStrategy alike key
      simp only [perform, Table.erase, erased, Table.contents_remove, sameStrategy]
      exact ⟨.flag _, alike.erase _⟩
  | clear => exact ⟨.nothing, fun _ => .none⟩
  | take => exact ⟨.whole equal, fun _ => .none⟩

/-! ### Runs -/

/-- The same operations on two equal tables: equal answers one by one, and equal tables at the
end. -/
theorem Table.run_alike {operations : List Operation}
    (fair : ∀ operation ∈ operations, operation.Fair) {table other : Table Value}
    (wellFiled : table.WellFiled) (otherFiled : other.WellFiled) (equal : table.equal other) :
    List.Forall₂ Answer.Equals (run operations table).1 (run operations other).1 ∧
      (run operations table).2.equal (run operations other).2 := by
  induction operations generalizing table other with
  | nil => exact ⟨.nil, equal⟩
  | cons operation rest ih =>
      obtain ⟨fairFirst, fairRest⟩ := List.forall_mem_cons.mp fair
      obtain ⟨answers, equalNext⟩ := operation.perform_alike fairFirst wellFiled otherFiled equal
      obtain ⟨later, equalLast⟩ := ih fairRest (operation.perform_wellFiled wellFiled)
        (operation.perform_wellFiled otherFiled) equalNext
      exact ⟨.cons answers later, equalLast⟩

/-- Nothing tells equal values apart.  Whatever a path finds in one of them has an equal
counterpart that it finds in the other, and a path that fails in one fails in the other with the
same failure.  And whatever is done to two equal tables, with the same keys and with values that
equal themselves, after any number of steps all answers have been equal and the tables are. -/
theorem Value.equal_values_answer_alike :
    (∀ value other : Value, value.WellFiled → other.WellFiled → value.equal other →
        ∀ path, Path.Agree False (fun found counterpart : Value => found.equal counterpart)
          (value.resolve path) (other.resolve path)) ∧
      ∀ table other : Table Value, table.WellFiled → other.WellFiled → table.equal other →
        ∀ operations : List Operation, (∀ operation ∈ operations, operation.Fair) →
          ∀ steps,
            List.Forall₂ Answer.Equals (Table.run (operations.take steps) table).1
                (Table.run (operations.take steps) other).1 ∧
              (Table.run (operations.take steps) table).2.equal
                (Table.run (operations.take steps) other).2 := by
  constructor
  · intro value other wellFiled otherFiled equal path
    exact resolve_equal equal wellFiled otherFiled path
  · intro table other wellFiled otherFiled equal operations fair steps
    have fairSteps : ∀ operation ∈ operations.take steps, operation.Fair :=
      fun operation isStep => fair operation (List.mem_of_mem_take isStep)
    exact Table.run_alike fairSteps wellFiled otherFiled equal

/-! ### Two tables that differ in all that equality leaves out -/

namespace Table

/-- Two entries, one of them zero. -/
def zeroed : Table Value :=
  ⟨.hashedCaseInsensitive, [⟨"key", "Key", .real ⟨0⟩⟩, ⟨"b", "b", .integer 1⟩]⟩

/-- The entries of `zeroed` in another order, with keys spelled in another way and a minus sign in
front of the zero. -/
def zeroedAnew : Table Value :=
  ⟨.hashedCaseInsensitive, [⟨"b", "B", .integer 1⟩, ⟨"key", "KEY", .real ⟨0x8000000000000000⟩⟩]⟩

theorem wellFiled_zeroed : zeroed.WellFiled := ⟨by decide, by decide, nofun⟩

theorem wellFiled_zeroedAnew : zeroedAnew.WellFiled := ⟨by decide, by decide, nofun⟩

theorem equal_zeroed : zeroed.equal zeroedAnew := by
  have signs : (⟨0⟩ : Binary64).equal ⟨0x8000000000000000⟩ := by decide
  simpa [zeroed, zeroedAnew, equal, Value.equal, Value.slotsWithin, slot?] using signs

/-- Look for an entry and leave it as it is, look again and write to it, file a new value, drop
an entry under yet another spelling, and move the rest out. -/
def operations : List Operation :=
  [.getOrInsert "kEy" id, .getOrInsert "keY" fun _ => .boolean true,
    .assign "new" (.sequence []), .remove "B", .take]

theorem fair_operations : ∀ operation ∈ operations, operation.Fair := by
  have scalar : (Value.boolean true).WellFiled ∧ (Value.boolean true).NaNFree :=
    ⟨.of_scalar rfl nofun, .of_scalar rfl nofun⟩
  have sequence : (Value.sequence []).WellFiled ∧ (Value.sequence []).NaNFree :=
    ⟨.of_sequence nofun nofun, .of_sequence nofun nofun⟩
  simp only [operations, List.forall_mem_cons, Operation.Fair]
  exact ⟨Value.respects_id, Value.respects_const scalar.1 scalar.2, sequence, trivial, trivial,
    nofun⟩

end Table

/-- A map of scalars is well filed if its table is. -/
theorem Value.wellFiled_map_of_scalars {table : Table Value} (wellFiled : table.WellFiled)
    (scalars : ∀ slot ∈ table.slots, slot.value.isScalar) : (Value.map table).WellFiled := by
  refine .of_map ?_ ?_
  · rintro _ ⟨⟩
    exact wellFiled
  · intro slot isSlot
    refine .of_scalar (scalars slot isSlot) ?_
    intro inside isMap
    have scalar := scalars slot isSlot
    rw [isMap] at scalar
    cases scalar

/-- Equal tables that differ in everything else: one path, and a run of five steps. -/
theorem Value.equal_values_answer_alike_zeroed :
    Path.Agree False (fun found counterpart : Value => found.equal counterpart)
        ((Value.map Table.zeroed).resolve "kEY") ((Value.map Table.zeroedAnew).resolve "kEY") ∧
      List.Forall₂ Answer.Equals (Table.run Table.operations Table.zeroed).1
        (Table.run Table.operations Table.zeroedAnew).1 ∧
      (Table.run Table.operations Table.zeroed).2.equal
        (Table.run Table.operations Table.zeroedAnew).2 :=
  ⟨equal_values_answer_alike.1 _ _
      (wellFiled_map_of_scalars Table.wellFiled_zeroed (by simp [Table.zeroed, isScalar]))
      (wellFiled_map_of_scalars Table.wellFiled_zeroedAnew (by simp [Table.zeroedAnew, isScalar]))
      Table.equal_zeroed "kEY",
    equal_values_answer_alike.2 _ _ Table.wellFiled_zeroed Table.wellFiled_zeroedAnew
      Table.equal_zeroed Table.operations Table.fair_operations 5⟩

end ConfTree
