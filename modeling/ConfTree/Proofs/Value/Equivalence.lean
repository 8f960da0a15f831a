/-
Module: ConfTree.Proofs.Value.Equivalence
Purpose: Equality of values is symmetric and transitive, and reflexive but for what is no number.
Main exports:
  Binary64.equal_symm, Binary64.equal_trans, Value.Equals.symm, Value.Equals.trans,
  Value.Equals.nanFree, Value.equality_laws
-/
import ConfTree.Proofs.Value.Congruence

namespace ConfTree

/-!
Equality is defined by going down both values at once, and a table without order is compared by
looking up each class of the first in the second.  That this is as good the other way round is
not to be seen from the definition: it takes that no class is filed twice.  For tables that are
well filed equality is a relation between dictionaries, which are alike class by class, and then
each law follows from the same law for the values that are filed.

Reals are compared as numbers.  So it is not the words that are equal, but no word that stands
for no number equals anything; these are the only values without an equal.
-/

/-! ### Reals -/

namespace Binary64

theorem equal_symm {number other : Binary64} (same : number.equal other) :
    other.equal number := by
  simp only [equal, Bool.and_eq_true, Bool.or_eq_true, Bool.not_eq_true', beq_iff_eq] at same ⊢
  obtain ⟨⟨isNumber, otherIsNumber⟩, agree⟩ := same
  exact ⟨⟨otherIsNumber, isNumber⟩, agree.imp Eq.symm And.symm⟩

theorem equal_trans {first second third : Binary64} (one : first.equal second)
    (two : second.equal third) : first.equal third := by
  simp only [equal, Bool.and_eq_true, Bool.or_eq_true, Bool.not_eq_true', beq_iff_eq]
    at one two ⊢
  obtain ⟨⟨isNumber, _⟩, agree⟩ := one
  obtain ⟨⟨_, thirdIsNumber⟩, agreeAgain⟩ := two
  refine ⟨⟨isNumber, thirdIsNumber⟩, ?_⟩
  rcases agree with rfl | zeros
  · exact agreeAgain
  · rcases agreeAgain with rfl | zerosAgain
    · exact .inr zeros
    · exact .inr ⟨zeros.1, zerosAgain.2⟩

theorem isNumber_of_equal {number other : Binary64} (same : number.equal other) :
    number.isNaN = false := by
  simp only [equal, Bool.and_eq_true, Bool.not_eq_true'] at same
  exact same.1.1

end Binary64

/-! ### Relations with their members at hand -/

section

variable {α β γ : Type}

/-- The relation between two lists may be turned around, member by member. -/
theorem forall₂_turned {relates : α → β → Prop} {turned : β → α → Prop} {items : List α}
    {others : List β} (related : List.Forall₂ relates items others)
    (turn : ∀ item ∈ items, ∀ other ∈ others, relates item other → turned other item) :
    List.Forall₂ turned others items := by
  induction related with
  | nil => exact .nil
  | @cons item other items others first _ ih =>
      refine .cons (turn item List.mem_cons_self other List.mem_cons_self first) (ih ?_)
      intro item isItem other isOther
      exact turn item (List.mem_cons_of_mem _ isItem) other (List.mem_cons_of_mem _ isOther)

/-- Two relations between three lists may be joined, member by member. -/
theorem forall₂_joined {relates : α → β → Prop} {relates' : β → γ → Prop} {joined : α → γ → Prop}
    {items : List α} {others : List β} {thirds : List γ}
    (related : List.Forall₂ relates items others) (related' : List.Forall₂ relates' others thirds)
    (join : ∀ item ∈ items, ∀ other ∈ others, ∀ third ∈ thirds,
      relates item other → relates' other third → joined item third) :
    List.Forall₂ joined items thirds := by
  induction related generalizing thirds with
  | nil => cases related'; exact .nil
  | @cons item other items others first _ ih =>
      cases related' with
      | @cons _ third _ thirds second rest =>
          refine .cons (join item List.mem_cons_self other List.mem_cons_self third
            List.mem_cons_self first second) (ih rest ?_)
          intro item isItem other isOther third isThird
          exact join item (List.mem_cons_of_mem _ isItem) other (List.mem_cons_of_mem _ isOther)
            third (List.mem_cons_of_mem _ isThird)

end

namespace Dictionary.Alike

variable {first second third : Dictionary}

theorem turned (alike : first.Alike second)
    (turn : ∀ filed value other, first.lookup filed = some value →
      second.lookup filed = some other → value.Equals other → other.Equals value) :
    second.Alike first := by
  intro filed
  have here := alike filed
  have turnHere := turn filed
  generalize first.lookup filed = found at here turnHere ⊢
  generalize second.lookup filed = counterpart at here turnHere ⊢
  cases here with
  | none => exact .none
  | some equal => exact .some (turnHere _ _ rfl rfl equal)

theorem joined (one : first.Alike second) (two : second.Alike third)
    (join : ∀ filed value other last, first.lookup filed = some value →
      second.lookup filed = some other → third.lookup filed = some last →
      value.Equals other → other.Equals last → value.Equals last) :
    first.Alike third := by
  intro filed
  have here := one filed
  have further := two filed
  have joinHere := join filed
  generalize first.lookup filed = found at here joinHere ⊢
  generalize second.lookup filed = counterpart at here further joinHere
  generalize third.lookup filed = last at further joinHere ⊢
  cases here with
  | none =>
      cases further
      exact .none
  | some equal =>
      cases further with
      | some equalAgain => exact .some (joinHere _ _ _ rfl rfl rfl equal equalAgain)

end Dictionary.Alike

/-- What a dictionary has under a class is the value of a slot. -/
theorem Table.exists_slot_of_lookup {table : Table Value} {filed : String} {value : Value}
    (found : table.contents.lookup filed = some value) :
    ∃ slot ∈ table.slots, slot.value = value := by
  rw [lookup_contents] at found
  obtain ⟨slot, there, same⟩ := Option.map_eq_some_iff.mp found
  exact ⟨slot, mem_of_slot? there, same⟩

namespace Value

/-! ### Scalars -/

/-- A scalar that is no real equals itself only. -/
theorem Equals.eq_of_scalar {value other : Value} (equal : value.Equals other)
    (scalar : value.isScalar) (notReal : value.kind ≠ .real) : other = value := by
  cases value with
  | boxed | sequence | map => cases scalar
  | real => exact absurd rfl notReal
  | text | integer | boolean => cases other <;> simp_all [Equals, Value.equal]

theorem equals_real_iff {number : Binary64} {other : Value} :
    (real number).Equals other ↔ ∃ counterpart, other = .real counterpart ∧
      number.equal counterpart := by
  cases other <;> simp [Equals, equal]

/-! ### The laws -/

theorem WellFiled.of_lookup {table : Table Value} (wellFiled : (map table).WellFiled)
    {filed : String} {value : Value} (found : table.contents.lookup filed = some value) :
    value.WellFiled := by
  obtain ⟨slot, isSlot, rfl⟩ := Table.exists_slot_of_lookup found
  exact wellFiled.entry isSlot

/-- If one value equals another one, the other one equals it. -/
theorem Equals.symm {value other : Value} (equal : value.Equals other)
    (wellFiled : value.WellFiled) (otherFiled : other.WellFiled) : other.Equals value := by
  induction value generalizing other with
  | text | integer | boolean =>
      obtain rfl := equal.eq_of_scalar rfl nofun
      exact equal
  | real number =>
      obtain ⟨counterpart, rfl, same⟩ := equals_real_iff.mp equal
      exact equals_real_iff.mpr ⟨number, rfl, Binary64.equal_symm same⟩
  | boxed inner ih =>
      obtain ⟨content, rfl, inside⟩ := equals_boxed_iff.mp equal
      exact equals_boxed_iff.mpr ⟨inner, rfl, ih inside wellFiled.inner otherFiled.inner⟩
  | sequence items ih =>
      obtain ⟨others, rfl, each⟩ := equals_sequence_iff.mp equal
      refine equals_sequence_iff.mpr ⟨items, rfl, forall₂_turned each ?_⟩
      intro item isItem other isOther same
      exact ih item isItem same (wellFiled.item isItem) (otherFiled.item isOther)
  | map table ih =>
      obtain ⟨counterpart, rfl, equalTables⟩ := equals_map_iff.mp equal
      have tableFiled := wellFiled.self table rfl
      have counterpartFiled := otherFiled.self counterpart rfl
      obtain ⟨sameStrategy, alike⟩ := (Table.equal_iff tableFiled counterpartFiled).mp equalTables
      refine equals_map_iff.mpr ⟨table, rfl, ?_⟩
      refine (Table.equal_iff counterpartFiled tableFiled).mpr ⟨sameStrategy.symm, alike.turned ?_⟩
      intro filed found other there counterThere same
      obtain ⟨slot, isSlot, rfl⟩ := Table.exists_slot_of_lookup there
      exact ih slot isSlot same (wellFiled.entry isSlot) (otherFiled.of_lookup counterThere)

/-- What equals an equal of a value equals the value. -/
theorem Equals.trans {first second third : Value} (one : first.Equals second)
    (two : second.Equals third) (firstFiled : first.WellFiled) (secondFiled : second.WellFiled)
    (thirdFiled : third.WellFiled) : first.Equals third := by
  induction first generalizing second third with
  | text | integer | boolean =>
      obtain rfl := one.eq_of_scalar rfl nofun
      exact two
  | real number =>
      obtain ⟨counterpart, rfl, same⟩ := equals_real_iff.mp one
      obtain ⟨last, rfl, sameAgain⟩ := equals_real_iff.mp two
      exact equals_real_iff.mpr ⟨last, rfl, Binary64.equal_trans same sameAgain⟩
  | boxed inner ih =>
      obtain ⟨content, rfl, inside⟩ := equals_boxed_iff.mp one
      obtain ⟨last, rfl, insideAgain⟩ := equals_boxed_iff.mp two
      exact equals_boxed_iff.mpr ⟨last, rfl,
        ih inside insideAgain firstFiled.inner secondFiled.inner thirdFiled.inner⟩
  | sequence items ih =>
      obtain ⟨others, rfl, each⟩ := equals_sequence_iff.mp one
      obtain ⟨lasts, rfl, eachAgain⟩ := equals_sequence_iff.mp two
      refine equals_sequence_iff.mpr ⟨lasts, rfl, forall₂_joined each eachAgain ?_⟩
      intro item isItem other isOther last isLast same sameAgain
      exact ih item isItem same sameAgain (firstFiled.item isItem) (secondFiled.item isOther)
        (thirdFiled.item isLast)
  | map table ih =>
      obtain ⟨middle, rfl, equalTables⟩ := equals_map_iff.mp one
      obtain ⟨last, rfl, equalAgain⟩ := equals_map_iff.mp two
      have tableFiled := firstFiled.self table rfl
      have middleFiled := secondFiled.self middle rfl
      have lastFiled := thirdFiled.self last rfl
      obtain ⟨strategy, alike⟩ := (Table.equal_iff tableFiled middleFiled).mp equalTables
      obtain ⟨strategy', alike'⟩ := (Table.equal_iff middleFiled lastFiled).mp equalAgain
      refine equals_map_iff.mpr ⟨last, rfl, (Table.equal_iff tableFiled lastFiled).mpr
        ⟨strategy.trans strategy', alike.joined alike' ?_⟩⟩
      intro filed value other final there middleThere lastThere same sameAgain
      obtain ⟨slot, isSlot, rfl⟩ := Table.exists_slot_of_lookup there
      exact ih slot isSlot same sameAgain (firstFiled.entry isSlot)
        (secondFiled.of_lookup middleThere) (thirdFiled.of_lookup lastThere)

/-- A value that equals itself has nothing in it that is not a number. -/
theorem Equals.nanFree {value : Value} (equal : value.Equals value)
    (wellFiled : value.WellFiled) : value.NaNFree := by
  induction value with
  | text | integer | boolean => exact .of_scalar rfl (by rintro _ ⟨⟩)
  | real number =>
      rw [Equals, Value.equal] at equal
      refine .of_scalar rfl ?_
      rintro _ ⟨⟩
      exact Binary64.isNumber_of_equal equal
  | boxed inner ih =>
      rw [Equals, Value.equal] at equal
      exact .of_boxed (by rintro _ ⟨⟩) (ih equal wellFiled.inner)
  | sequence items ih =>
      rw [Equals, Value.equal, equalItems_iff, List.forall₂_same] at equal
      refine .of_sequence (by rintro _ ⟨⟩) ?_
      intro item isItem
      exact ih item isItem (equal item isItem) (wellFiled.item isItem)
  | map table ih =>
      have tableFiled := wellFiled.self table rfl
      obtain ⟨_, alike⟩ := (Table.equal_iff tableFiled tableFiled).mp equal
      refine .of_map (by rintro _ ⟨⟩) ?_
      intro slot isSlot
      have here := alike slot.filed
      rw [Table.lookup_contents_of_mem tableFiled isSlot, Option.rel_some_some] at here
      exact ih slot isSlot here (wellFiled.entry isSlot)

/-- Equality is symmetric and transitive.  A value equals itself, and so a copy of it, exactly if
no real in it, at any depth, is not a number. -/
theorem equality_laws :
    (∀ value other : Value, value.WellFiled → other.WellFiled →
      value.equal other = true → other.equal value = true) ∧
      (∀ first second third : Value, first.WellFiled → second.WellFiled → third.WellFiled →
        first.equal second = true → second.equal third = true → first.equal third = true) ∧
      ∀ value : Value, value.WellFiled → (value.equal value = true ↔ value.NaNFree) := by
  refine ⟨?_, ?_, ?_⟩
  · intro value other wellFiled otherFiled equal
    exact Equals.symm equal wellFiled otherFiled
  · intro first second third firstFiled secondFiled thirdFiled one two
    exact Equals.trans one two firstFiled secondFiled thirdFiled
  · intro value wellFiled
    exact ⟨fun equal => Equals.nanFree equal wellFiled, fun nanFree => equal_self wellFiled nanFree⟩

/-- In a box and a list: two tables that differ in the order and the spelling of their keys and in
the sign of a zero, and a real that is not a number. -/
theorem equality_laws_nested :
    let first := boxed (.sequence [.map Table.zeroed])
    let second := boxed (.sequence [.map Table.zeroedAnew])
    let undefined := boxed (.sequence [.real ⟨0x7ff8000000000000⟩])
    first.WellFiled ∧ second.WellFiled ∧ undefined.WellFiled ∧ first.equal second = true ∧
      second.equal first = true ∧ first.equal first = true ∧ undefined.equal undefined = false := by
  intro first second undefined
  have enclosed : ∀ inner : Value, inner.WellFiled → (boxed (.sequence [inner])).WellFiled := by
    intro inner wellFiled
    refine .of_boxed (by rintro _ ⟨⟩) (.of_sequence (by rintro _ ⟨⟩) ?_)
    exact List.forall_mem_singleton.mpr wellFiled
  have firstFiled : first.WellFiled := enclosed _
    (wellFiled_map_of_scalars Table.wellFiled_zeroed (by simp [Table.zeroed, isScalar]))
  have secondFiled : second.WellFiled := enclosed _
    (wellFiled_map_of_scalars Table.wellFiled_zeroedAnew (by simp [Table.zeroedAnew, isScalar]))
  have undefinedFiled : undefined.WellFiled := enclosed _ (.of_scalar rfl (by rintro _ ⟨⟩))
  have equal : first.equal second = true := by
    simpa [first, second, Value.equal, equalItems, Table.equal] using Table.equal_zeroed
  obtain ⟨symmetric, transitive, reflexive⟩ := equality_laws
  have back := symmetric first second firstFiled secondFiled equal
  refine ⟨firstFiled, secondFiled, undefinedFiled, equal, back,
    transitive first second first firstFiled secondFiled firstFiled equal back, ?_⟩
  rw [Bool.eq_false_iff, ne_eq, reflexive undefined undefinedFiled]
  intro nanFree
  have isNumber := (nanFree.inner.item List.mem_cons_self).self _ rfl
  revert isNumber
  decide

end Value

end ConfTree
