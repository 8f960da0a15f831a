/-
Module: ConfTree.Proofs.Path.Composition
Purpose: Resolving a path in one go or in two.
Main exports:
  Path.head_append, Path.tail?_append, Value.resolve_append, Value.resolve_dotless,
  Value.resolve_head, Table.resolve_eq_resolve_map, Path.resolve_composes
-/
import ConfTree.Path
import Mathlib.Data.List.TakeWhile

namespace ConfTree

/-!
A path is resolved from its first dot to its last, one segment at a time.  A dot between
two paths does not move the first dot of the first one, so the steps of the first path
are taken as if the second one were not there, empty segments included; where they end,
the second path starts.  A failure on the way is the failure of the whole.
-/

namespace Path

/-! ### The first dot -/

theorem toList_append_dot (first second : String) :
    (first ++ "." ++ second).toList = first.toList ++ '.' :: second.toList := by
  simp

/-- The first segment of two paths with a dot between them is that of the first one. -/
theorem head_append (first second : String) : head (first ++ "." ++ second) = head first := by
  rw [head, head, toList_append_dot]
  congr 1
  induction first.toList with
  | nil => rfl
  | cons c rest ih =>
      rw [List.cons_append, List.takeWhile_cons, List.takeWhile_cons, ih]

/-- What is behind the first dot of two paths with a dot between them. -/
theorem tail?_append (first second : String) :
    tail? (first ++ "." ++ second) =
      some (match tail? first with
        | some rest => rest ++ "." ++ second
        | none => second) := by
  rw [tail?, tail?, toList_append_dot, List.dropWhile_append]
  cases first.toList.dropWhile (· != '.') with
  | nil => simp
  | cons dot rest => simp [String.append_assoc]

theorem head_dotless {path : String} (dotless : '.' ∉ path.toList) : head path = path := by
  have whole : path.toList.takeWhile (· != '.') = path.toList := by
    rw [List.takeWhile_eq_self_iff]
    intro c member
    exact bne_iff_ne.mpr fun dot => dotless (dot ▸ member)
  rw [head, whole, String.ofList_toList]

theorem tail?_dotless {path : String} (dotless : '.' ∉ path.toList) : tail? path = none := by
  have nothing : path.toList.dropWhile (· != '.') = [] := by
    rw [List.dropWhile_eq_nil_iff]
    intro c member
    exact bne_iff_ne.mpr fun dot => dotless (dot ▸ member)
  rw [tail?, nothing]

end Path

namespace Value

/-! ### Steps -/

theorem resolve_of_tail?_none (value : Value) {path : String} (last : Path.tail? path = none) :
    value.resolve path = value.descend (Path.head path) := by
  rw [resolve]
  cases value.descend (Path.head path) with
  | error failure => rfl
  | ok child =>
      dsimp only
      split
      case h_1 behind => simp [last] at behind
      case h_2 => rfl

theorem resolve_of_tail?_some (value : Value) {path rest : String}
    (behind : Path.tail? path = some rest) :
    value.resolve path =
      (value.descend (Path.head path)).bind fun child => child.resolve rest := by
  rw [resolve]
  cases value.descend (Path.head path) with
  | error failure => rfl
  | ok child =>
      dsimp only
      split
      case h_1 next =>
        rw [behind] at next
        cases next
        rfl
      case h_2 last => simp [behind] at last

/-- A path may be cut at any of its dots. -/
theorem resolve_append (value : Value) (first second : String) :
    value.resolve (first ++ "." ++ second) =
      (value.resolve first).bind fun found => found.resolve second := by
  fun_induction resolve value first with
  | case1 value first failure failed =>
      rw [resolve_of_tail?_some value (Path.tail?_append first second), Path.head_append, failed]
      rfl
  | case2 value first child found rest behind ih =>
      have next := Path.tail?_append first second
      rw [behind] at next
      rw [resolve_of_tail?_some value next, Path.head_append, found]
      exact ih
  | case3 value first child found last =>
      have next := Path.tail?_append first second
      rw [last] at next
      rw [resolve_of_tail?_some value next, Path.head_append, found]

/-- A path without a dot is one step. -/
theorem resolve_dotless (value : Value) {segment : String} (dotless : '.' ∉ segment.toList) :
    value.resolve segment = value.descend segment := by
  rw [resolve_of_tail?_none value (Path.tail?_dotless dotless), Path.head_dotless dotless]

/-- A path with a dot is one step, up to the first dot, and then the rest. -/
theorem resolve_head (value : Value) {segment : String} (dotless : '.' ∉ segment.toList)
    (rest : String) :
    value.resolve (segment ++ "." ++ rest) =
      (value.descend segment).bind fun child => child.resolve rest := by
  rw [resolve_append, resolve_dotless value dotless]

end Value

/-- A table resolves paths as the map that holds it. -/
theorem Table.resolve_eq_resolve_map (table : Table Value) (path : String) :
    table.resolve path = (Value.map table).resolve path := by
  have step : (Value.map table).descend (Path.head path) = table.at (Path.head path) := rfl
  rw [Table.resolve]
  cases behind : Path.tail? path with
  | none =>
      rw [Value.resolve_of_tail?_none _ behind, step]
      cases table.at (Path.head path) <;> rfl
  | some rest =>
      rw [Value.resolve_of_tail?_some _ behind, step]
      cases table.at (Path.head path) <;> rfl

/-- Two paths with a dot between them lead from a value, and from a table, to where the
second one leads from where the first one leads; if the first one fails, so do both
together, with that failure.  A table and the map that holds it resolve alike. -/
theorem Path.resolve_composes :
    (∀ (value : Value) (first second : String),
        value.resolve (first ++ "." ++ second) =
          (value.resolve first).bind fun found => found.resolve second) ∧
      (∀ (table : Table Value) (first second : String),
        table.resolve (first ++ "." ++ second) =
          (table.resolve first).bind fun found => found.resolve second) ∧
      ∀ (table : Table Value) (path : String),
        table.resolve path = (Value.map table).resolve path := by
  refine ⟨Value.resolve_append, ?_, Table.resolve_eq_resolve_map⟩
  intro table first second
  rw [Table.resolve_eq_resolve_map, Table.resolve_eq_resolve_map]
  exact Value.resolve_append (.map table) first second

end ConfTree
