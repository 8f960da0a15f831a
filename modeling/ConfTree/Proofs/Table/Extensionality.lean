/-
Module: ConfTree.Proofs.Table.Extensionality
Purpose: Tables are equal exactly if they have one strategy and the same is found in both.
Main exports:
  Value.Reachable, Table.WellFiled.alike_iff, Table.equal_iff_get?, Table.equality_extensional
-/
import ConfTree.Proofs.Table.Spelling
import ConfTree.Proofs.Value.Equivalence

namespace ConfTree

/-!
What can be found in a table is all that counts when it is compared.  A comparison does not look
at every key there could be: it goes through the entries of one table, in order or by looking
each of them up in the other, and through none of the other table.  That nothing is missed is a
matter of counting, for which it takes that no class is filed twice, and of each slot being filed
under a class that some key has, its own.

The strategy is a part of what is compared, because it decides which keys are the same.
-/

namespace Value

/-- All tables in the value, at any depth, can be reached. -/
def Reachable (value : Value) : Prop :=
  value.Everywhere fun part =>
    ∀ table, part = .map table → ∃ past, Table.Reached table.strategy past table

theorem Reachable.wellFiled {value : Value} (reachable : value.Reachable) : value.WellFiled := by
  intro part isPart table isMap
  obtain ⟨past, reached⟩ := reachable part isPart table isMap
  exact reached.recorded.wellFiled

theorem reachable_map {past : List KeyEvent} {table : Table Value}
    (reached : Table.Reached table.strategy past table)
    (inside : ∀ slot ∈ table.slots, slot.value.Reachable) : (map table).Reachable := by
  refine .of_map ?_ inside
  rintro _ ⟨⟩
  exact ⟨past, reached⟩

theorem reachable_scalar {value : Value} (scalar : value.isScalar) : value.Reachable := by
  refine .of_scalar scalar ?_
  rintro table rfl
  cases scalar

end Value

namespace Table

variable {first second : Table Value}

/-- Every class that is filed is the class of a key. -/
theorem WellFiled.exists_key_of_mem (wellFiled : first.WellFiled) {filed : String}
    (present : filed ∈ first.contents) : ∃ key, first.strategy.keyClass key = filed := by
  obtain ⟨slot, isSlot, rfl⟩ := mem_contents_iff.mp present
  exact ⟨slot.key, (wellFiled.filed slot isSlot).symm⟩

/-- What holds of all that is filed holds of all answers, as no class is filed that no key has. -/
theorem WellFiled.forall_lookup_iff (relates : Option Value → Option Value → Prop)
    (nothing : relates none none) (wellFiled : first.WellFiled) (otherFiled : second.WellFiled)
    (sameStrategy : first.strategy = second.strategy) :
    (∀ filed, relates (first.contents.lookup filed) (second.contents.lookup filed)) ↔
      ∀ key, relates (first.get? key) (second.get? key) := by
  constructor
  · intro related key
    rw [get?_eq_lookup, get?_eq_lookup, ← sameStrategy]
    exact related _
  · intro related filed
    by_cases named : ∃ key, first.strategy.keyClass key = filed
    · obtain ⟨key, rfl⟩ := named
      have found := related key
      rwa [get?_eq_lookup, get?_eq_lookup, ← sameStrategy] at found
    · have absent : filed ∉ first.contents := fun present =>
        named (wellFiled.exists_key_of_mem present)
      have absentToo : filed ∉ second.contents := fun present =>
        named (sameStrategy ▸ otherFiled.exists_key_of_mem present)
      rw [Finmap.lookup_eq_none.mpr absent, Finmap.lookup_eq_none.mpr absentToo]
      exact nothing

/-- The dictionaries of two tables are alike exactly if equal values are found in them. -/
theorem WellFiled.alike_iff (wellFiled : first.WellFiled) (otherFiled : second.WellFiled)
    (sameStrategy : first.strategy = second.strategy) :
    first.contents.Alike second.contents ↔
      ∀ key, Option.Rel Value.Equals (first.get? key) (second.get? key) :=
  wellFiled.forall_lookup_iff (Option.Rel Value.Equals) .none otherFiled sameStrategy

theorem equal_iff_get? (wellFiled : first.WellFiled) (otherFiled : second.WellFiled) :
    first.equal second = true ↔ first.strategy = second.strategy ∧
      ∀ key, Option.Rel Value.Equals (first.get? key) (second.get? key) := by
  rw [equal_iff wellFiled otherFiled]
  exact and_congr_right fun sameStrategy => wellFiled.alike_iff otherFiled sameStrategy

/-- A comparison of two tables may be turned around. -/
theorem equal_comm (wellFiled : (Value.map first).WellFiled)
    (otherFiled : (Value.map second).WellFiled) : second.equal first = first.equal second := by
  rw [Bool.eq_iff_iff]
  exact ⟨fun equal => Value.Equals.symm equal otherFiled wellFiled,
    fun equal => Value.Equals.symm equal wellFiled otherFiled⟩

/-- Two tables that can be reached are equal exactly if they have the same strategy and, whatever
the key, nothing is found in both or equal values are.  Which of them is the first makes no
difference.  Neither does it in which order their entries were filed or are walked, or how the
stored keys are spelled: a table in which the same is found compares in the same way. -/
theorem equality_extensional (reachable : (Value.map first).Reachable)
    (alsoReachable : (Value.map second).Reachable) :
    (first.equal second = true ↔ first.strategy = second.strategy ∧
      ∀ key, Option.Rel (fun value other : Value => value.equal other = true)
        (first.get? key) (second.get? key)) ∧
      second.equal first = first.equal second ∧
      ∀ other : Table Value, (Value.map other).Reachable → other.strategy = first.strategy →
        (∀ key, other.get? key = first.get? key) →
          other.equal second = first.equal second ∧ second.equal other = second.equal first := by
  have wellFiled := reachable.wellFiled
  have otherFiled := alsoReachable.wellFiled
  have extensional {table : Table Value} (tableFiled : (Value.map table).WellFiled) :=
    equal_iff_get? (tableFiled.self table rfl) (otherFiled.self second rfl)
  refine ⟨extensional wellFiled, equal_comm wellFiled otherFiled, ?_⟩
  intro other otherReachable sameStrategy sameFound
  have likewise : other.equal second = first.equal second := by
    rw [Bool.eq_iff_iff, extensional otherReachable.wellFiled, extensional wellFiled]
    simp only [sameStrategy, sameFound]
  refine ⟨likewise, ?_⟩
  rw [equal_comm otherReachable.wellFiled otherFiled, likewise, equal_comm wellFiled otherFiled]

/-- Two tables that were filed in different order and under different spellings, each with an
ordered table inside, are equal. -/
theorem equality_extensional_spelled :
    let inner := (run [.assign "x" (.boolean true)] (.empty .ordered)).2
    let filed := (run [.insert "b" (.integer 1), .insert "Foo" (.map inner)]
      (.empty .hashedCaseInsensitive)).2
    let anew := (run [.assign "FOO" (.map inner), .assign "B" (.integer 1)]
      (.empty .hashedCaseInsensitive)).2
    (Value.map filed).Reachable ∧ (Value.map anew).Reachable ∧ filed.keys = ["b", "Foo"] ∧
      anew.keys = ["FOO", "B"] ∧ filed.equal anew = true ∧ anew.equal filed = true ∧
      Option.Rel (fun value other : Value => value.equal other = true)
        (filed.get? "fOO") (anew.get? "fOO") := by
  intro inner filed anew
  have innerReached : Reached .ordered [.files "x"] inner :=
    Reached.new.operated (.assign "x" (.boolean true))
  have filedReached : Reached .hashedCaseInsensitive [.files "b", .files "Foo"] filed :=
    (Reached.new.operated (.insert "b" (.integer 1))).operated (.insert "Foo" (.map inner))
  have anewReached : Reached .hashedCaseInsensitive [.files "FOO", .files "B"] anew :=
    (Reached.new.operated (.assign "FOO" (.map inner))).operated (.assign "B" (.integer 1))
  have innerIs : inner = ⟨.ordered, [⟨"x", "x", .boolean true⟩]⟩ := by rfl
  have filedIs : filed =
      ⟨.hashedCaseInsensitive, [⟨"b", "b", .integer 1⟩, ⟨"foo", "Foo", .map inner⟩]⟩ := by rfl
  have anewIs : anew =
      ⟨.hashedCaseInsensitive, [⟨"foo", "FOO", .map inner⟩, ⟨"b", "B", .integer 1⟩]⟩ := by rfl
  have innerReachable : (Value.map inner).Reachable := by
    refine Value.reachable_map innerReached ?_
    rw [innerIs, List.forall_mem_singleton]
    exact Value.reachable_scalar rfl
  have filedReachable : (Value.map filed).Reachable := by
    refine Value.reachable_map filedReached ?_
    rw [filedIs, List.forall_mem_cons, List.forall_mem_singleton]
    exact ⟨Value.reachable_scalar rfl, innerReachable⟩
  have anewReachable : (Value.map anew).Reachable := by
    refine Value.reachable_map anewReached ?_
    rw [anewIs, List.forall_mem_cons, List.forall_mem_singleton]
    exact ⟨innerReachable, Value.reachable_scalar rfl⟩
  have equal : filed.equal anew = true := by
    simp [filedIs, anewIs, innerIs, equal, Value.equal, Value.slotsWithin, Value.equalSlots, slot?]
  obtain ⟨extensional, turned, _⟩ := equality_extensional filedReachable anewReachable
  exact ⟨filedReachable, anewReachable, by decide, by decide, equal, turned.trans equal,
    (extensional.mp equal).2 "fOO"⟩

end Table

end ConfTree
