/-
Module: ConfTree.Proofs.Path.Segments
Purpose: Paths as lists of segments, and the path that grows along such a list.
Main exports:
  Path.segments, Path.location, Path.segments_intercalate, Path.foldl_childPath_root,
  Path.segments_location_eq_iff, Value.resolve_intercalate
-/
import ConfTree.Proofs.Path.Composition
import ConfTree.Value.Json

namespace ConfTree

/-!
Segments are joined by dots, and a path falls into its segments at the dots: on segments
without dots the two are inverse.  The path that a reader of documents carries along grows
by a dot and a segment with each step, but for the root: that has the empty path, and a
child of the empty path gets its own segment alone.  A key may be empty as well, so
empty keys at the front of a place leave no trace in its path.
-/

namespace Path

/-- What stands between the dots of a path. -/
def segments (path : String) : List String := (path.toList.splitOn '.').map String.ofList

/-- The path of the place that a list of keys and indices leads to from the root. -/
def location (place : List String) : String :=
  ".".intercalate (place.dropWhile String.isEmpty)

/-! ### Splitting and joining -/

/-- Segments without dots that are joined by dots are found again. -/
theorem segments_intercalate {place : List String} (notNil : place ≠ [])
    (dotless : ∀ segment ∈ place, '.' ∉ segment.toList) :
    segments (".".intercalate place) = place := by
  have dot : ".".toList = ['.'] := rfl
  have parts : ∀ part ∈ place.map String.toList, '.' ∉ part :=
    List.forall_mem_map.mpr dotless
  rw [segments, String.toList_intercalate, dot,
    List.splitOn_intercalate '.' parts (mt List.map_eq_nil_iff.mp notNil), List.map_map]
  exact List.map_id'' (fun segment => String.ofList_toList) place

example : segments "a..b" = ["a", "", "b"] := by decide

theorem not_dot_mem_index (index : Nat) : '.' ∉ (toString index).toList := by
  intro dot
  have digit : '.' ∈ Nat.toDigits 10 index := by
    rwa [Nat.toString_eq_repr, Nat.toList_repr] at dot
  have isDigit := Nat.isDigit_of_mem_toDigits (by decide) (by decide) digit
  cases isDigit

/-! ### Locations -/

theorem location_of_head_ne {place : List String} (begins : place.head? ≠ some "") :
    location place = ".".intercalate place := by
  cases place with
  | nil => rfl
  | cons segment rest =>
      have notEmpty : segment ≠ "" := by simpa using begins
      rw [location, List.dropWhile_cons_of_neg (by simpa using notEmpty)]

theorem location_cons_empty (rest : List String) : location ("" :: rest) = location rest := by
  rw [location, location, List.dropWhile_cons_of_pos rfl]

/-! ### Growing -/

theorem childPath_of_ne {parent : String} (inside : parent ≠ "") (segment : String) :
    Value.childPath parent segment = parent ++ "." ++ segment := by
  rw [Value.childPath, if_neg (by simpa using inside)]

/-- Away from the root each step adds a dot and a segment. -/
theorem foldl_childPath {parent : String} (inside : parent ≠ "") (place : List String) :
    place.foldl Value.childPath parent = ".".intercalate (parent :: place) := by
  induction place generalizing parent with
  | nil => rw [List.foldl_nil, String.intercalate_singleton]
  | cons segment rest ih =>
      have further : parent ++ "." ++ segment ≠ "" := by simp
      rw [List.foldl_cons, childPath_of_ne inside, ih further, String.intercalate_cons_cons]
      cases rest with
      | nil => rw [String.intercalate_singleton, String.intercalate_singleton]
      | cons next others =>
          rw [String.intercalate_cons_cons, String.intercalate_cons_cons]
          simp only [String.append_assoc]

/-- From the root the empty segments at the front add nothing. -/
theorem foldl_childPath_root (place : List String) :
    place.foldl Value.childPath "" = location place := by
  induction place with
  | nil => rw [List.foldl_nil, location, List.dropWhile_nil, String.intercalate_nil]
  | cons segment rest ih =>
      have child : Value.childPath "" segment = segment := rfl
      rw [List.foldl_cons, child]
      by_cases empty : segment = ""
      · rw [empty, ih, location_cons_empty]
      · rw [foldl_childPath empty, location_of_head_ne (by simpa using empty)]

/-! ### Segments of a location -/

/-- The path of a place below the root has no more segments than it took steps. -/
theorem length_segments_location {place : List String} (notNil : place ≠ [])
    (dotless : ∀ segment ∈ place, '.' ∉ segment.toList) :
    (segments (location place)).length ≤ place.length := by
  by_cases allEmpty : place.dropWhile String.isEmpty = []
  · rw [location, allEmpty, String.intercalate_nil]
    exact List.length_pos_iff.mpr notNil
  · have suffix := List.dropWhile_suffix (l := place) String.isEmpty
    rw [location, segments_intercalate allEmpty fun segment member =>
      dotless segment (suffix.subset member)]
    exact suffix.length_le

/-- The path of a place has the steps to it as its segments unless the first one of several
is empty. -/
theorem segments_location_eq_iff {place : List String} (notNil : place ≠ [])
    (dotless : ∀ segment ∈ place, '.' ∉ segment.toList) :
    segments (location place) = place ↔ place.head? ≠ some "" ∨ place = [""] := by
  constructor
  · intro same
    by_contra neither
    obtain ⟨beginsEmpty, notAlone⟩ := not_or.mp neither
    obtain ⟨rest, rfl⟩ := List.head?_eq_some_iff.mp (not_not.mp beginsEmpty)
    have restNotNil : rest ≠ [] := by
      rintro rfl
      exact notAlone rfl
    have short := length_segments_location restNotNil fun segment member =>
      dotless segment (List.mem_cons_of_mem "" member)
    rw [← location_cons_empty, same, List.length_cons] at short
    omega
  · intro faithful
    rcases faithful with begins | rfl
    · rw [location_of_head_ne begins]
      exact segments_intercalate notNil dotless
    · decide

end Path

/-- A joined path is resolved segment by segment. -/
theorem Value.resolve_intercalate (value : Value) {place : List String} (notNil : place ≠ [])
    (dotless : ∀ segment ∈ place, '.' ∉ segment.toList) :
    value.resolve (".".intercalate place) = place.foldlM Value.descend value := by
  induction place generalizing value with
  | nil => exact absurd rfl notNil
  | cons segment rest ih =>
      obtain ⟨here, behind⟩ := List.forall_mem_cons.mp dotless
      rw [List.foldlM_cons]
      cases rest with
      | nil =>
          rw [String.intercalate_singleton, resolve_dotless value here]
          cases value.descend segment <;> rfl
      | cons next others =>
          rw [String.intercalate_cons_cons, resolve_head value here]
          cases value.descend segment with
          | error failure => rfl
          | ok child => exact ih child (List.cons_ne_nil next others) behind

end ConfTree
