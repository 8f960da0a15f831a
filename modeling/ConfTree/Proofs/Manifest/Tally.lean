/-
Module: ConfTree.Proofs.Manifest.Tally
Purpose: Names are counted one after the other, and those that came up again are listed in order.
Main exports:
  Manifest.Counts, Manifest.Counts.countName, Manifest.mem_repeated_iff,
  Manifest.repeated_ascending, Manifest.repeated_eq_nil_iff
-/
import ConfTree.Manifest.Review
import ConfTree.Proofs.Table.Enumeration

namespace ConfTree.Manifest

/-!
A table of numbers counts names: each name that has come up is filed with how often it did, and
no other name is.  One more name keeps that true, so it is true after any list of names.  As the
table is ordered, the names that are picked out of it come in order as well, each of them once.
-/

/-- The table has counted exactly those names. -/
structure Counts (seen : Table Nat) (names : List String) : Prop where
  ordered : seen.strategy = .ordered
  wellFiled : seen.WellFiled
  counted : ∀ name, seen.get? name = if name ∈ names then some (names.count name) else none

variable {seen : Table Nat} {names : List String}

theorem counts_nothing : Counts (.empty .ordered) [] :=
  ⟨rfl, .empty .ordered, fun _ => rfl⟩

/-- To count a name once more changes the count of that name and of no other. -/
theorem get?_countName (ordered : seen.strategy = .ordered) (wellFiled : seen.WellFiled)
    (name other : String) :
    (countName seen name).get? other =
      if other = name then some ((seen.get? name).getD 0 + 1) else seen.get? other := by
  have inserted := wellFiled.get?_insertIfNew name 0 other
  have ownClass (key : String) : seen.strategy.keyClass key = key := by rw [ordered]; rfl
  rw [ownClass, ownClass] at inserted
  rw [countName, Table.getOrInsert_snd]
  by_cases same : other = name
  · subst same
    rw [if_pos rfl] at inserted ⊢
    rw [Table.get?_modify rfl, inserted, Option.map_some]
  · rw [if_neg same] at inserted ⊢
    rw [Table.get?_modify_of_ne, inserted]
    rw [Table.insertIfNew_strategy, ownClass, ownClass]
    exact same

/-- A table that has counted some names counts one more name along with them. -/
theorem Counts.countName (counts : Counts seen names) (name : String) :
    Counts (countName seen name) (names ++ [name]) := by
  obtain ⟨ordered, wellFiled, counted⟩ := counts
  refine ⟨?_, ?_, ?_⟩
  · rw [Manifest.countName, Table.modify_strategy, Table.getOrInsert_strategy, ordered]
  · rw [Manifest.countName, Table.getOrInsert_snd]
    exact (wellFiled.insertIfNew name 0).of_sameKeys (.modify _ name _)
  · intro other
    rw [get?_countName ordered wellFiled, counted, counted]
    by_cases same : other = name
    · subst same
      by_cases before : other ∈ names
      · simp [before]
      · simp [before, List.count_eq_zero_of_not_mem before]
    · simp [same, Ne.symm same, List.count_append]

/-! ### Names that came up again -/

theorem mem_repeated_iff (counts : Counts seen names) {name : String} :
    name ∈ repeated seen ↔ 2 ≤ names.count name := by
  have here : name ∈ repeated seen ↔ ∃ count, (name, count) ∈ seen.entries ∧ 1 < count := by
    simp [repeated]
  rw [here]
  constructor
  · rintro ⟨count, isEntry, often⟩
    have found := counts.wellFiled.get?_of_mem_entries isEntry
    rw [counts.counted] at found
    split at found
    case isTrue => exact Option.some.inj found ▸ often
    case isFalse => cases found
  · intro often
    have cameUp : name ∈ names := List.count_pos_iff.mp (by omega)
    have found : seen.get? name = some (names.count name) := by
      rw [counts.counted, if_pos cameUp]
    obtain ⟨stored, sameClass, isEntry⟩ := counts.wellFiled.exists_entry found
    rw [counts.ordered] at sameClass
    obtain rfl : stored = name := sameClass
    exact ⟨_, isEntry, often⟩

/-- The names that came up again are listed in ascending order, and so each of them once. -/
theorem repeated_ascending (counts : Counts seen names) :
    (repeated seen).Pairwise fun first second => first < second := by
  rw [repeated, List.pairwise_map]
  exact (counts.wellFiled.entries_ascending counts.ordered).filter _

/-- The list of names that came up again is empty exactly if all names are different. -/
theorem repeated_eq_nil_iff (counts : Counts seen names) : repeated seen = [] ↔ names.Nodup := by
  rw [List.eq_nil_iff_forall_not_mem, List.nodup_iff_count_le_one]
  apply forall_congr'
  intro name
  rw [mem_repeated_iff counts]
  omega

end ConfTree.Manifest
