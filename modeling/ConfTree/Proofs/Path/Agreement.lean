/-
Module: ConfTree.Proofs.Path.Agreement
Purpose: Values that agree at each step agree along every path.
Main exports:
  Path.induction, Path.Agree, Path.itemAt_agree, Table.at_agree, Value.resolve_agree
-/
import ConfTree.Proofs.Path.Composition
import Mathlib.Data.List.Forall2

namespace ConfTree

/-!
Two values may look alike to whoever resolves paths and yet be different: one has boxes
that the other has not, or its tables file their keys in another way.  Such a likeness is
a relation between values that every single step respects: from related values a segment
leads to related values again, or it fails at both of them for the same reason.  Then the
same is true of paths, whatever the relation is.

A likeness can be one-sided.  Then a failure of the first look-up is excused, and nothing is
said about the second one in that case.
-/

namespace Path

/-- Induction along a path, from its last segment backwards. -/
theorem induction {motive : String → Prop}
    (last : ∀ path, tail? path = none → motive path)
    (more : ∀ path rest, tail? path = some rest → motive rest → motive path) :
    ∀ path, motive path := by
  intro path
  cases behind : tail? path with
  | none => exact last path behind
  | some rest => exact more path rest behind (induction last more rest)
termination_by path => path.length
decreasing_by exact length_lt_of_tail? behind

/-! ### Outcomes -/

/-- Two look-ups succeed with related results, or they fail alike.  If failures are
excused, nothing is said about the second one where the first one fails. -/
inductive Agree {α β : Type} (excused : Prop) (relates : α → β → Prop) :
    Except Failure α → Except Failure β → Prop
  | found {x : α} {y : β} (related : relates x y) : Agree excused relates (.ok x) (.ok y)
  | failed (failure : Failure) : Agree excused relates (.error failure) (.error failure)
  | excused (may : excused) (failure : Failure) (second : Except Failure β) :
      Agree excused relates (.error failure) second

section

variable {α β γ δ : Type} {excused : Prop} {relates : α → β → Prop}

namespace Agree

/-- Look-ups agree if their first steps do, and then what follows on related results. -/
theorem bind {next : γ → δ → Prop} {first : Except Failure α} {second : Except Failure β}
    (agree : Agree excused relates first second) {further : α → Except Failure γ}
    {further' : β → Except Failure δ}
    (following : ∀ x y, relates x y → Agree excused next (further x) (further' y)) :
    Agree excused next (first.bind further) (second.bind further') := by
  cases agree with
  | found related => exact following _ _ related
  | failed failure => exact .failed failure
  | excused may failure second => exact .excused may failure _

theorem imp {excused' : Prop} {relates' : α → β → Prop} {first : Except Failure α}
    {second : Except Failure β} (agree : Agree excused relates first second)
    (may : excused → excused') (implies : ∀ x y, relates x y → relates' x y) :
    Agree excused' relates' first second := by
  cases agree with
  | found related => exact .found (implies _ _ related)
  | failed failure => exact .failed failure
  | excused is failure second => exact .excused (may is) failure second

/-- What is known of either result may be added to the relation between them. -/
theorem and_found {first : Except Failure α} {second : Except Failure β}
    (agree : Agree excused relates first second) {holds : α → Prop} {holds' : β → Prop}
    (each : ∀ x, first = .ok x → holds x) (each' : ∀ y, second = .ok y → holds' y) :
    Agree excused (fun x y => relates x y ∧ holds x ∧ holds' y) first second := by
  cases agree with
  | found related => exact .found ⟨related, each _ rfl, each' _ rfl⟩
  | failed failure => exact .failed failure
  | excused may failure second => exact .excused may failure second

/-- What the first look-up finds has a counterpart that the second one finds. -/
theorem exists_found {first : Except Failure α} {second : Except Failure β}
    (agree : Agree excused relates first second) {x : α} (succeeds : first = .ok x) :
    ∃ y, second = .ok y ∧ relates x y := by
  cases agree with
  | found related =>
      cases succeeds
      exact ⟨_, rfl, related⟩
  | failed => cases succeeds
  | excused => cases succeeds

/-- Without excuses the second outcome is told by the first if results are. -/
theorem map_eq {change : α → β} {first : Except Failure α} {second : Except Failure β}
    (agree : Agree False (fun x y => change x = y) first second) :
    first.map change = second := by
  cases agree with
  | found related =>
      cases related
      rfl
  | failed => rfl
  | excused may => exact may.elim

end Agree

end

/-! ### Steps -/

theorem exists_getElem?_of_forall₂ {α β : Type} {relates : α → β → Prop} {items : List α}
    {others : List β} (related : List.Forall₂ relates items others) {position : Nat} {item : α}
    (there : items[position]? = some item) :
    ∃ other, others[position]? = some other ∧ relates item other := by
  induction related generalizing position with
  | nil => cases there
  | cons first _ ih =>
      cases position with
      | zero =>
          cases there
          exact ⟨_, rfl, first⟩
      | succ position => exact ih there

/-- A segment leads to related items of sequences with related items. -/
theorem itemAt_agree {excused : Prop} {relates : Value → Value → Prop} {items others : List Value}
    (related : List.Forall₂ relates items others) (segment : String) :
    Agree excused relates (itemAt items segment) (itemAt others segment) := by
  cases spelled : readIndex? segment with
  | none =>
      simp only [itemAt, spelled]
      exact .failed _
  | some index =>
      cases placed : position? (place index others.length) with
      | none =>
          simp only [itemAt, spelled, related.length_eq, placed, Option.bind_none]
          exact .failed _
      | some position =>
          simp only [itemAt, spelled, related.length_eq, placed, Option.bind_some]
          cases there : items[position]? with
          | some item =>
              obtain ⟨other, otherThere, relatedItem⟩ :=
                exists_getElem?_of_forall₂ related there
              rw [otherThere]
              exact .found relatedItem
          | none =>
              have beyond : others[position]? = none := by
                rw [List.getElem?_eq_none_iff, ← related.length_eq]
                exact List.getElem?_eq_none_iff.mp there
              rw [beyond]
              exact .failed _

end Path

/-- A key leads to related entries of tables if both have one, and to the same failure if
none has. -/
theorem Table.at_agree {α β : Type} {excused : Prop} {relates : α → β → Prop} {table : Table α}
    {other : Table β} {key : String}
    (found : ∀ x, table.get? key = some x → ∃ y, other.get? key = some y ∧ relates x y)
    (absent : table.get? key = none → other.get? key = none ∨ excused) :
    Path.Agree excused relates (table.at key) (other.at key) := by
  rw [Table.at, Table.at]
  cases entry : table.get? key with
  | some x =>
      obtain ⟨y, otherEntry, related⟩ := found x entry
      rw [otherEntry]
      exact .found related
  | none =>
      rcases absent entry with otherAbsent | may
      · rw [otherAbsent]
        exact .failed _
      · exact .excused may _ _

/-! ### Paths -/

/-- What each step respects, every path respects. -/
theorem Value.resolve_agree {excused : Prop} {relates : Value → Value → Prop}
    (step : ∀ x y, relates x y → ∀ segment,
      Path.Agree excused relates (x.descend segment) (y.descend segment))
    {value other : Value} (related : relates value other) (path : String) :
    Path.Agree excused relates (value.resolve path) (other.resolve path) := by
  induction path using Path.induction generalizing value other with
  | last path last =>
      rw [resolve_of_tail?_none value last, resolve_of_tail?_none other last]
      exact step value other related _
  | more path rest behind ih =>
      rw [resolve_of_tail?_some value behind, resolve_of_tail?_some other behind]
      apply (step value other related _).bind
      intro x y relatedChildren
      exact ih relatedChildren

end ConfTree
