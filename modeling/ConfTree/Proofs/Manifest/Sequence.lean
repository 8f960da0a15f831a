/-
Module: ConfTree.Proofs.Manifest.Sequence
Purpose: A manifest is reviewed component by component, up to the first defect.
Main exports:
  Manifest.Review.followedBy, Manifest.reviewComponents_append, Manifest.manifestOf,
  Manifest.HeaderGrammar, Manifest.HalfConfigured, Manifest.warnings_reviewComponent,
  Manifest.review_component_by_component
-/
import ConfTree.Proofs.Manifest.Grammar

namespace ConfTree.Manifest

/-!
A review has two results, the records or the first defect, and the warnings.  Both are built
up along the components: a component with a defect still gives its own warning, but nothing
behind it is looked at any more.  So the review of two lists of components one after the other
is made of the two reviews, by a rule that knows nothing of components.

What is left is a single component, and which warning it gives.  That is told from the document
alone, by the part of the grammar that is checked before the warning is due.
-/

/-! ### One list after the other -/

section

variable {α : Type}

/-- Two reviews one after the other.  The second one counts only if the first one found no
defect. -/
def Review.followedBy (first second : Review (List α)) : Review (List α) :=
  match first.outcome with
  | .error _ => first
  | .ok found =>
      ⟨first.warnings ++ second.warnings, second.outcome.map (found ++ ·)⟩

/-- A review of no components does not change the review of those behind them. -/
theorem Review.nothing_followedBy (second : Review (List α)) :
    Review.followedBy ⟨[], .ok []⟩ second = second := by
  obtain ⟨warnings, outcome⟩ := second
  cases outcome <;> simp [followedBy, Except.map]

end

/-- Components are reviewed up to the first defect, wherever the list of them is cut. -/
theorem reviewComponents_append (first second : List Json) :
    reviewComponents (first ++ second) =
      (reviewComponents first).followedBy (reviewComponents second) := by
  induction first with
  | nil => simp [reviewComponents, Review.nothing_followedBy]
  | cons item rest ih =>
      simp only [List.cons_append, reviewComponents, ih]
      cases (reviewComponent item).outcome with
      | error defect => simp [Review.followedBy]
      | ok component =>
          cases others : (reviewComponents rest).outcome with
          | error defect => simp [Review.followedBy, others, Except.map]
          | ok components =>
              cases following : (reviewComponents second).outcome <;>
                simp [Review.followedBy, others, following, Except.map]

/-- The document that has those components and nothing else. -/
def manifestOf (items : List Json) : Json := .object [("components", .array items)]

@[simp] theorem review_manifestOf (items : List Json) :
    review (manifestOf items) = reviewComponents items := rfl

/-! ### The warning of a component -/

/-- The fields that are checked before the warning are as wanted. -/
structure HeaderGrammar (fields : Fields) : Prop where
  implementationClass : Requires fields "implementation-class" IsText
  injectReferences : Permits fields "inject-references" IsTruth
  configurationPolicy : Permits fields "configuration-policy"
    (IsWord ["ignore", "optional", "require"])
  configurationPid : Permits fields "configuration-pid" IsText

/-- The members are well formed as far as the warning goes, name that implementation class,
and give just one of configuration policy and configuration pid. -/
structure WarnsOf (fields : Fields) (implementationClass : String) : Prop where
  header : HeaderGrammar fields
  named : Has fields "implementation-class" (.string implementationClass)
  onlyOne : Lacks fields "configuration-policy" ↔ ¬ Lacks fields "configuration-pid"

/-- The item is an object of which a warning is due, whatever its other members are. -/
def HalfConfigured (item : Json) (implementationClass : String) : Prop :=
  ObjectIs WarnsOf item implementationClass

theorem exists_describesHeader_iff {fields : Fields} :
    (∃ header, DescribesHeader fields header) ↔ HeaderGrammar fields := by
  have texts : ∀ found, (∃ content, found = Json.string content) ↔ IsText found := fun _ => Iff.rfl
  have truths : ∀ found, (∃ truth, TruthIs found truth) ↔ IsTruth found := fun _ => Iff.rfl
  constructor
  · intro described
    obtain ⟨header, implementationClass, _, ⟨inject, hasInject, _⟩, policy, pid⟩ := described
    constructor
    · exact (exists_has_iff texts).mp ⟨_, implementationClass⟩
    · exact (exists_mayHave_iff_permits truths).mp ⟨_, hasInject⟩
    · exact (exists_mayHave_iff_permits fun _ => exists_choiceIs_iff rfl).mp ⟨_, policy⟩
    · exact (exists_mayHave_iff_permits fun _ => exists_textIs_iff).mp ⟨_, pid⟩
  · intro grammar
    obtain ⟨implementationClass, inject, policy, pid⟩ := grammar
    obtain ⟨implementationClass, hasClass⟩ := (exists_has_iff texts).mpr implementationClass
    obtain ⟨inject, hasInject⟩ := (exists_mayHave_iff_permits truths).mpr inject
    obtain ⟨policy, hasPolicy⟩ :=
      (exists_mayHave_iff_permits fun _ =>
        exists_choiceIs_iff (α := ConfigurationPolicy) rfl).mpr policy
    obtain ⟨pid, hasPid⟩ := (exists_mayHave_iff_permits fun _ => exists_textIs_iff).mpr pid
    exact ⟨⟨implementationClass, readName fields, inject.getD true, policy, pid⟩, hasClass, rfl,
      ⟨inject, hasInject, rfl⟩, hasPolicy, hasPid⟩

/-- A member that may be left out gives nothing exactly if it is left out. -/
theorem MayHave.lacks_iff {α : Type} {fields : Fields} {name : String}
    {relates : Json → α → Prop} {given : Option α} (mayHave : MayHave fields name relates given) :
    Lacks fields name ↔ given.isSome = false := by
  cases mayHave with
  | absent lacks => simp [lacks]
  | present has =>
      have there : Json.member? fields name = some _ := has
      simp [Lacks, there]

/-- A warning is due exactly if there is a header and it is half configured. -/
theorem warnsOf_iff {fields : Fields} {implementationClass : String} :
    WarnsOf fields implementationClass ↔
      ∃ header, DescribesHeader fields header ∧ header.isHalfConfigured ∧
        header.implementationClass = implementationClass := by
  have onlyOne : ∀ header, DescribesHeader fields header →
      ((Lacks fields "configuration-policy" ↔ ¬ Lacks fields "configuration-pid") ↔
        header.isHalfConfigured) := by
    intro header described
    simp only [described.policy.lacks_iff, described.pid.lacks_iff, Header.isHalfConfigured]
    cases header.policy.isSome <;> cases header.pid.isSome <;> simp
  constructor
  · intro warns
    obtain ⟨header, described⟩ := exists_describesHeader_iff.mpr warns.header
    refine ⟨header, described, (onlyOne header described).mp warns.onlyOne, ?_⟩
    have sameMember := described.implementationClass.symm.trans warns.named
    simpa using sameMember
  · intro warns
    obtain ⟨header, described, half, rfl⟩ := warns
    exact ⟨exists_describesHeader_iff.mp ⟨header, described⟩, described.implementationClass,
      (onlyOne header described).mpr half⟩

/-- The only warning that a component may give is due as soon as its header is known. -/
theorem mem_warnings_reviewComponent_iff {item : Json} {implementationClass : String} :
    implementationClass ∈ (reviewComponent item).warnings ↔
      HalfConfigured item implementationClass := by
  simp only [HalfConfigured, ObjectIs, warnsOf_iff]
  rw [reviewComponent]
  cases read : readItem item with
  | error defect =>
      simp only [List.not_mem_nil, false_iff]
      rintro ⟨fields, same, header, described, _⟩
      cases read.symm.trans (readItem_eq_ok_iff.mpr ⟨same, described⟩)
  | ok found =>
      obtain ⟨fields, header⟩ := found
      obtain ⟨same, described⟩ := readItem_eq_ok_iff.mp read
      constructor
      · intro warned
        by_cases half : header.isHalfConfigured
        · refine ⟨fields, same, header, described, half, ?_⟩
          simpa [half, eq_comm] using warned
        · simp [half] at warned
      · rintro ⟨others, sameObject, other, describedOther, half, rfl⟩
        cases read.symm.trans (readItem_eq_ok_iff.mpr ⟨sameObject, describedOther⟩)
        simp [half]

/-- No component gives more than one warning. -/
theorem length_warnings_reviewComponent_le (item : Json) :
    (reviewComponent item).warnings.length ≤ 1 := by
  rw [reviewComponent]
  split
  · simp
  · split <;> simp

theorem warnings_reviewComponent_eq_singleton_iff {item : Json} {implementationClass : String} :
    (reviewComponent item).warnings = [implementationClass] ↔
      HalfConfigured item implementationClass := by
  rw [← mem_warnings_reviewComponent_iff]
  have short := length_warnings_reviewComponent_le item
  cases warned : (reviewComponent item).warnings with
  | nil => simp
  | cons first others =>
      have alone : others = [] := by
        simpa [warned] using short
      simp [alone, eq_comm]

theorem warnings_reviewComponent_eq_nil_iff {item : Json} :
    (reviewComponent item).warnings = [] ↔
      ¬ ∃ implementationClass, HalfConfigured item implementationClass := by
  simp only [← mem_warnings_reviewComponent_iff, List.eq_nil_iff_forall_not_mem, not_exists]

/-- A list of one component has the warnings of that component. -/
theorem warnings_reviewComponents_singleton (item : Json) :
    (reviewComponents [item]).warnings = (reviewComponent item).warnings := by
  simp only [reviewComponents]
  cases (reviewComponent item).outcome <;> simp

/-! ### Whole manifests -/

/-- A manifest whose components are two lists one after the other is reviewed as the first of
them, if there is a defect in it: the same defect and the same warnings, whatever comes behind.
Otherwise the warnings of the second list are put behind those of the first, and so are its
records, unless its defect is the result.  A single component gives one warning if it is well
formed up to the configuration pid and gives just one of policy and pid, even if there is a
defect further on; in any other case it gives none. -/
theorem review_component_by_component :
    (∀ first second : List Json,
        review (manifestOf (first ++ second)) =
          match (review (manifestOf first)).outcome with
          | .error _ => review (manifestOf first)
          | .ok components =>
              { warnings := (review (manifestOf first)).warnings ++
                  (review (manifestOf second)).warnings
                outcome := (review (manifestOf second)).outcome.map (components ++ ·) }) ∧
      ∀ item : Json,
        (∀ implementationClass,
            (review (manifestOf [item])).warnings = [implementationClass] ↔
              HalfConfigured item implementationClass) ∧
          ((review (manifestOf [item])).warnings = [] ↔
            ¬ ∃ implementationClass, HalfConfigured item implementationClass) := by
  constructor
  · intro first second
    simp only [review_manifestOf, reviewComponents_append, Review.followedBy]
    cases (reviewComponents first).outcome <;> rfl
  · intro item
    simp only [review_manifestOf, warnings_reviewComponents_singleton]
    exact ⟨fun _ => warnings_reviewComponent_eq_singleton_iff,
      warnings_reviewComponent_eq_nil_iff⟩

end ConfTree.Manifest
