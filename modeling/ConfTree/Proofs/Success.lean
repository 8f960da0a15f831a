/-
Module: ConfTree.Proofs.Success
Purpose: When a sequence of steps that may fail succeeds, and what it fails with.
Main exports:
  bind_eq_ok_iff, bind_eq_error_iff, map_eq_ok_iff, map_eq_error_iff, mapM_eq_ok_iff,
  exists_forall₂_iff, exists_of_mem_forall₂, map_eq_map_of_forall₂, forall₂_of_common
-/
import Mathlib.Data.List.Forall2

namespace ConfTree

/-!
Every reader of the project stops at its first failure.  What it reads is therefore best
said from its successes: two steps succeed together if the first one does and the second
one does on its result, and a step for each item succeeds if it does for each of them.  What
it fails with is told the other way round: the second of two steps only counts behind a success.
-/

variable {ε α β : Type}

theorem bind_eq_ok_iff {first : Except ε α} {next : α → Except ε β} {result : β} :
    first >>= next = .ok result ↔ ∃ found, first = .ok found ∧ next found = .ok result := by
  cases first with
  | error defect => exact ⟨nofun, nofun⟩
  | ok found =>
      constructor
      · intro success
        exact ⟨found, rfl, success⟩
      · rintro ⟨_, ⟨⟩, success⟩
        exact success

/-- Two steps fail together with what the first one fails with, or else the second one. -/
theorem bind_eq_error_iff {first : Except ε α} {next : α → Except ε β} {defect : ε} :
    first >>= next = .error defect ↔
      first = .error defect ∨ ∃ found, first = .ok found ∧ next found = .error defect := by
  cases first with
  | error other =>
      constructor
      · rintro ⟨⟩
        exact .inl rfl
      · rintro (⟨⟨⟩⟩ | ⟨_, ⟨⟩, _⟩)
        rfl
  | ok found =>
      constructor
      · intro failure
        exact .inr ⟨found, rfl, failure⟩
      · rintro (⟨⟨⟩⟩ | ⟨_, ⟨⟩, failure⟩)
        exact failure

theorem map_eq_ok_iff {first : Except ε α} {change : α → β} {result : β} :
    change <$> first = .ok result ↔ ∃ found, first = .ok found ∧ change found = result := by
  cases first with
  | error defect => exact ⟨nofun, nofun⟩
  | ok found =>
      constructor
      · rintro ⟨⟩
        exact ⟨found, rfl, rfl⟩
      · rintro ⟨_, ⟨⟩, rfl⟩
        rfl

theorem map_eq_error_iff {first : Except ε α} {change : α → β} {defect : ε} :
    change <$> first = .error defect ↔ first = .error defect := by
  cases first with
  | error other =>
      constructor
      · rintro ⟨⟩
        rfl
      · rintro ⟨⟩
        rfl
  | ok found => exact ⟨nofun, nofun⟩

/-- Items are read one after the other, each by itself. -/
theorem mapM_eq_ok_iff {read : α → Except ε β} {items : List α} {results : List β} :
    items.mapM read = .ok results ↔
      List.Forall₂ (fun item result => read item = .ok result) items results := by
  induction items generalizing results with
  | nil =>
      rw [List.forall₂_nil_left_iff]
      constructor
      · rintro ⟨⟩
        rfl
      · rintro rfl
        rfl
  | cons item rest ih =>
      rw [List.mapM_cons, bind_eq_ok_iff, List.forall₂_cons_left_iff]
      constructor
      · rintro ⟨first, readFirst, following⟩
        obtain ⟨others, readOthers, ⟨⟩⟩ := bind_eq_ok_iff.mp following
        exact ⟨first, others, readFirst, ih.mp readOthers, rfl⟩
      · rintro ⟨first, others, readFirst, readOthers, rfl⟩
        exact ⟨first, readFirst, bind_eq_ok_iff.mpr ⟨others, ih.mpr readOthers, rfl⟩⟩

/-- Items can be related to results if each of them can. -/
theorem exists_forall₂_iff {relates : α → β → Prop} {items : List α} :
    (∃ results, List.Forall₂ relates items results) ↔
      ∀ item ∈ items, ∃ result, relates item result := by
  induction items with
  | nil => simp
  | cons item rest ih =>
      rw [List.forall_mem_cons, ← ih]
      constructor
      · rintro ⟨_, related⟩
        cases related with
        | cons first following => exact ⟨⟨_, first⟩, _, following⟩
      · rintro ⟨⟨first, relatedFirst⟩, others, relatedOthers⟩
        exact ⟨first :: others, .cons relatedFirst relatedOthers⟩

/-- If items and results are related one by one, each result is related to one of the items. -/
theorem exists_of_mem_forall₂ {relates : α → β → Prop} {items : List α} {results : List β}
    (related : List.Forall₂ relates items results) {result : β} (isResult : result ∈ results) :
    ∃ item ∈ items, relates item result := by
  induction related with
  | nil => cases isResult
  | @cons item first _ _ relatedFirst _ ih =>
      rcases List.mem_cons.mp isResult with rfl | isOther
      · exact ⟨item, List.mem_cons_self, relatedFirst⟩
      · obtain ⟨other, isItem, relatedOther⟩ := ih isOther
        exact ⟨other, List.mem_cons_of_mem item isItem, relatedOther⟩

/-- Related lists look the same if related items do. -/
theorem map_eq_map_of_forall₂ {γ : Type} {relates : α → β → Prop} {items : List α}
    {results : List β} (related : List.Forall₂ relates items results) {view : α → γ}
    {otherView : β → γ}
    (each : ∀ item ∈ items, ∀ result, relates item result → view item = otherView result) :
    items.map view = results.map otherView := by
  induction related with
  | nil => rfl
  | cons first _ ih =>
      obtain ⟨eachHere, eachBehind⟩ := List.forall_mem_cons.mp each
      rw [List.map_cons, List.map_cons, eachHere _ first, ih eachBehind]

/-- Results of the same items are related if they are so for each item. -/
theorem forall₂_of_common {γ : Type} {first : α → β → Prop} {second : α → γ → Prop}
    {both : β → γ → Prop} {items : List α} {results : List β} {others : List γ}
    (firstRelated : List.Forall₂ first items results)
    (secondRelated : List.Forall₂ second items others)
    (each : ∀ item ∈ items, ∀ result other, first item result → second item other →
      both result other) :
    List.Forall₂ both results others := by
  induction firstRelated generalizing others with
  | nil =>
      cases secondRelated
      exact .nil
  | cons firstHere _ ih =>
      cases secondRelated with
      | cons secondHere following =>
          obtain ⟨eachHere, eachBehind⟩ := List.forall_mem_cons.mp each
          exact .cons (eachHere _ _ firstHere secondHere) (ih following eachBehind)

end ConfTree
