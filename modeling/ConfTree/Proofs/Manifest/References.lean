/-
Module: ConfTree.Proofs.Manifest.References
Purpose: What is wrong with the references of a component, and which of it is reported.
Main exports:
  Manifest.FirstDefect, Manifest.Fails, Manifest.ReferenceDefect, Manifest.readReference_fails,
  Manifest.readReferences_of_malformed, Manifest.NamesShared, Manifest.readReferences_of_sound,
  Manifest.SoundOtherwise, Manifest.references_of_component
-/
import ConfTree.Proofs.Manifest.Sequence
import ConfTree.Proofs.Text.ByteOrder

namespace ConfTree.Manifest

/-!
Two things may be wrong with references.  One of them may be malformed, and then the first
defect of the first such reference is what is reported.  Several of them may share a name, and
the names that are shared are reported together, but only if no reference is malformed.

The defects are told from the document alone, field by field.  As the reader stops at the first
one, a sequence of its steps fails as the first of them that fails, and so do the references one
after the other.
-/

/-! ### Defects of a field -/

/-- What is wrong with a field that must hold a string. -/
inductive TextDefect (fields : Fields) (name : String) : Defect → Prop where
  | missing (lacks : Lacks fields name) : TextDefect fields name (.missingField name)
  | notText {value : Json} (has : Has fields name value) (other : ¬ IsText value) :
      TextDefect fields name (.wrongType name "a string")

/-- What is wrong with a field that must hold a string if it is there. -/
inductive OptionalTextDefect (fields : Fields) (name : String) : Defect → Prop where
  | notText {value : Json} (has : Has fields name value) (other : ¬ IsText value) :
      OptionalTextDefect fields name (.wrongType name "a string")

/-- What is wrong with a field that must hold one of some words. -/
inductive WordDefect (words : List String) (fields : Fields) (name : String) : Defect → Prop where
  | notText {defect : Defect} (wrong : TextDefect fields name defect) :
      WordDefect words fields name defect
  | unlisted {word : String} (has : Has fields name (.string word)) (other : word ∉ words) :
      WordDefect words fields name (.invalidChoice name word words)

/-! ### The first defect -/

/-- Checks are made one after the other, each known by the defects that it finds.  The first
one that finds any is the last one that is made. -/
inductive FirstDefect : List (Defect → Prop) → Defect → Prop where
  | found {check : Defect → Prop} {rest : List (Defect → Prop)} {defect : Defect}
      (finds : check defect) : FirstDefect (check :: rest) defect
  | further {check : Defect → Prop} {rest : List (Defect → Prop)} {defect : Defect}
      (passed : ∀ other, ¬ check other) (later : FirstDefect rest defect) :
      FirstDefect (check :: rest) defect

/-- The step fails exactly with those defects. -/
def Fails {α : Type} (step : Except Defect α) (defects : Defect → Prop) : Prop :=
  ∀ defect, step = .error defect ↔ defects defect

section Steps

variable {α β : Type}

theorem fails_ok {result : α} : Fails (.ok result) (FirstDefect []) :=
  fun _ => ⟨nofun, nofun⟩

/-- One more step in front is one more check that comes first. -/
theorem Fails.bind {first : Except Defect α} {next : α → Except Defect β}
    {check : Defect → Prop} {checks : List (Defect → Prop)} (fails : Fails first check)
    (failsThen : ∀ found, Fails (next found) (FirstDefect checks)) :
    Fails (first >>= next) (FirstDefect (check :: checks)) := by
  intro defect
  rw [bind_eq_error_iff]
  constructor
  · intro failure
    rcases failure with failure | ⟨found, success, failure⟩
    · exact .found ((fails defect).mp failure)
    · apply FirstDefect.further
      · intro other finds
        cases success.symm.trans ((fails other).mpr finds)
      · exact (failsThen found defect).mp failure
  · intro wrong
    cases wrong with
    | found finds => exact .inl ((fails defect).mpr finds)
    | further passed later =>
        cases outcome : first with
        | error other => exact absurd ((fails other).mp outcome) (passed other)
        | ok found => exact .inr ⟨found, rfl, (failsThen found defect).mpr later⟩

variable {fields : Fields} {field : String} {defect : Defect}

theorem required_eq_error_iff :
    required fields field = .error defect ↔ Lacks fields field ∧ .missingField field = defect := by
  rw [required, Lacks]
  cases Json.member? fields field <;> simp

theorem text_eq_error_iff {value : Json} :
    text field value = .error defect ↔
      ¬ IsText value ∧ .wrongType field "a string" = defect := by
  rw [IsText]
  cases value <;> simp [text]

/-- A word that stands for nothing is not listed. -/
theorem choose_eq_error_iff [Choice α] {word : String} :
    (choose field word : Except Defect α) = .error defect ↔
      word ∉ Choice.words α ∧ .invalidChoice field word (Choice.words α) = defect := by
  have unlisted : Choice.ofWord? word = (none : Option α) ↔ word ∉ Choice.words α := by
    simp only [Choice.ofWord?, Choice.words, Option.map_eq_none_iff, List.find?_eq_none,
      List.mem_map, not_exists, not_and, beq_iff_eq]
  rw [← unlisted, choose]
  cases Choice.ofWord? (α := α) word <;> simp

/-- A field that may be left out is read if it is there. -/
theorem optional_of_has {value : Json} {read : Json → Except Defect α}
    (has : Has fields field value) : optional fields field read = some <$> read value := by
  rw [optional, has]

theorem requiredText_fails : Fails (requiredText fields field) (TextDefect fields field) := by
  intro defect
  rw [requiredText, bind_eq_error_iff]
  simp only [required_eq_error_iff, required_eq_ok_iff, text_eq_error_iff]
  constructor
  · intro failure
    rcases failure with ⟨lacks, rfl⟩ | ⟨value, has, other, rfl⟩
    · exact .missing lacks
    · exact .notText has other
  · intro wrong
    cases wrong with
    | missing lacks => exact .inl ⟨lacks, rfl⟩
    | notText has other => exact .inr ⟨_, has, other, rfl⟩

theorem optionalText_fails :
    Fails (optionalText fields field) (OptionalTextDefect fields field) := by
  intro defect
  constructor
  · intro failure
    cases found : Json.member? fields field with
    | none =>
        rw [optionalText, optional, found] at failure
        cases failure
    | some value =>
        rw [optionalText, optional_of_has found, map_eq_error_iff, text_eq_error_iff] at failure
        rcases failure with ⟨other, rfl⟩
        exact .notText found other
  · intro wrong
    cases wrong with
    | notText has other =>
        rw [optionalText, optional_of_has has, map_eq_error_iff, text_eq_error_iff]
        exact ⟨other, rfl⟩

theorem requiredChoice_fails [Choice α] :
    Fails (requiredChoice fields field : Except Defect α)
      (WordDefect (Choice.words α) fields field) := by
  intro defect
  rw [requiredChoice, bind_eq_error_iff]
  simp only [requiredText_fails defect, choose_eq_error_iff]
  constructor
  · intro failure
    rcases failure with wrong | ⟨word, success, other, rfl⟩
    · exact .notText wrong
    · exact .unlisted (requiredText_eq_ok_iff.mp success) other
  · intro wrong
    cases wrong with
    | notText wrong => exact .inl wrong
    | unlisted has other => exact .inr ⟨_, requiredText_eq_ok_iff.mpr has, other, rfl⟩

end Steps

/-! ### Defects of references -/

/-- The checks of a reference in the order in which they are made. -/
def referenceChecks (fields : Fields) : List (Defect → Prop) :=
  [TextDefect fields "name", TextDefect fields "interface",
    WordDefect ["0..1", "1..1", "0..n", "1..n"] fields "cardinality",
    WordDefect ["static", "dynamic"] fields "policy",
    WordDefect ["reluctant", "greedy"] fields "policy-option",
    OptionalTextDefect fields "target"]

/-- What is wrong with an item that should be a reference. -/
inductive ReferenceDefect : Json → Defect → Prop where
  | notObject {item : Json} (other : ∀ fields, item ≠ .object fields) :
      ReferenceDefect item (.wrongType "references" "an array of objects")
  | field {fields : Fields} {defect : Defect}
      (first : FirstDefect (referenceChecks fields) defect) :
      ReferenceDefect (.object fields) defect

/-- A reference fails in the same way whatever was read before it. -/
theorem readReference_fails (progress : Progress) (item : Json) :
    Fails (readReference progress item) (ReferenceDefect item) := by
  cases item with
  | object fields =>
      have failsAsChecked :
          Fails (readReference progress (.object fields))
            (FirstDefect (referenceChecks fields)) := by
        apply Fails.bind requiredText_fails
        intro name
        apply Fails.bind requiredText_fails
        intro interface
        apply Fails.bind requiredChoice_fails
        intro cardinality
        apply Fails.bind requiredChoice_fails
        intro policy
        apply Fails.bind requiredChoice_fails
        intro policyOption
        apply Fails.bind optionalText_fails
        intro target
        exact fails_ok
      intro defect
      rw [failsAsChecked defect]
      constructor
      · intro first
        exact .field first
      · intro wrong
        cases wrong with
        | notObject other => cases other fields rfl
        | field first => exact first
  | _ =>
      intro defect
      constructor
      · intro failure
        cases failure
        exact .notObject nofun
      · intro wrong
        cases wrong
        rfl

/-- Behind well-formed references, a malformed one settles how all of them fail. -/
theorem readReferences_of_malformed {before after : List Json} {item : Json}
    (sound : ∀ earlier ∈ before, IsObject ReferenceGrammar earlier)
    (malformed : ¬ IsObject ReferenceGrammar item) :
    ∃ defect, readReferences (before ++ item :: after) = .error defect ∧
      ∀ other, ReferenceDefect item other ↔ other = defect := by
  obtain ⟨references, each⟩ := exists_forall₂_iff.mpr fun earlier member =>
    exists_objectIs_reference_iff.mpr (sound earlier member)
  have readBefore : before.foldlM readReference .start = .ok (references.foldl .add .start) :=
    foldlM_readReference_eq_ok_iff.mpr ⟨references, each, rfl⟩
  cases outcome : readReference (references.foldl .add .start) item with
  | ok progress =>
      obtain ⟨reference, described, _⟩ := readReference_eq_ok_iff.mp outcome
      exact absurd (exists_objectIs_reference_iff.mp ⟨reference, described⟩) malformed
  | error defect =>
      refine ⟨defect, ?_, ?_⟩
      · rw [readReferences, bind_eq_error_iff]
        left
        rw [List.foldlM_append, readBefore, bind_eq_error_iff]
        refine .inr ⟨_, rfl, ?_⟩
        rw [List.foldlM_cons, outcome]
        rfl
      · intro other
        rw [← readReference_fails (references.foldl .add .start) item other, outcome,
          Except.error.injEq, eq_comm]

/-! ### Names that are shared -/

/-- The names that several references have, in the order of their bytes. -/
structure NamesShared (references : List Reference) (names : List String) : Prop where
  ascending : names.Pairwise fun first second => Text.bytes first < Text.bytes second
  shared : ∀ name, name ∈ names ↔ 2 ≤ (references.map (·.name)).count name

/-- Well-formed references are taken in their order unless they share names, which are then
reported. -/
theorem readReferences_of_sound {items : List Json} {references : List Reference}
    (each : List.Forall₂ (ObjectIs DescribesReference) items references) :
    ((∃ names, readReferences items = .error (.duplicateReferences names)) ↔
        ∃ name, 2 ≤ (references.map (·.name)).count name) ∧
      (∀ names, readReferences items = .error (.duplicateReferences names) →
        NamesShared references names) ∧
      ((∀ name, (references.map (·.name)).count name < 2) →
        readReferences items = .ok references) := by
  obtain ⟨seen, counts, reads⟩ := readReferences_of_forall₂ each
  have shared : NamesShared references (repeated seen) := by
    constructor
    · exact (repeated_ascending counts).imp Text.bytes_lt_bytes
    · exact fun name => mem_repeated_iff counts
  simp only [← shared.shared]
  rw [reads]
  cases listed : repeated seen with
  | nil => simp
  | cons first others =>
      rw [listed] at shared
      refine ⟨?_, ?_, ?_⟩
      · exact ⟨fun _ => ⟨first, List.mem_cons_self⟩, fun _ => ⟨_, rfl⟩⟩
      · intro names reported
        cases reported
        exact shared
      · intro single
        have twice := (shared.shared first).mp List.mem_cons_self
        have once := single first
        omega

/-! ### The references of a component -/

/-- The members are those of a component, apart from the references. -/
structure SoundOtherwise (fields : Fields) : Prop where
  header : HeaderGrammar fields
  service : Permits fields "service" (IsObject ServiceGrammar)

/-- What comes of a component that is sound otherwise is what comes of its references. -/
theorem outcome_of_soundOtherwise {fields : Fields} {items : List Json}
    (sound : SoundOtherwise fields) (given : Has fields "references" (.array items)) :
    ∃ (header : Header) (service : Option Service), (reviewComponent (.object fields)).outcome =
      header.component service <$> readReferences items := by
  obtain ⟨header, described⟩ := exists_describesHeader_iff.mpr sound.header
  obtain ⟨service, hasService⟩ :=
    (exists_mayHave_iff_permits fun _ => exists_objectIs_iff fun _ =>
      exists_describesService_iff).mpr sound.service
  refine ⟨header, service, ?_⟩
  rw [reviewComponent, readItem_eq_ok_iff.mpr ⟨rfl, described⟩]
  dsimp only
  rw [readBody, (optional_eq_ok_iff fun _ _ => readServiceValue_eq_ok_iff).mpr hasService,
    optional_of_has given, array_eq_ok_iff.mpr rfl]
  change (some <$> readReferences items >>= fun references =>
    .ok (header.component service (references.getD []))) = _
  cases readReferences items with
  | error defect => rfl
  | ok references => rfl

/-- Of a component that is sound otherwise, the first malformed reference is reported, with the
first of its defects and whatever names were shared before it.  If no reference is malformed,
the names that are shared are reported, if there are any: each once, and in the order of their
bytes.  If there are none, the component has all the references in the order given. -/
theorem references_of_component {fields : Fields} {items : List Json}
    (sound : SoundOtherwise fields) (given : Has fields "references" (.array items)) :
    (∀ before item after, items = before ++ item :: after →
        (∀ earlier ∈ before, IsObject ReferenceGrammar earlier) →
        ¬ IsObject ReferenceGrammar item →
        ∃ defect, (reviewComponent (.object fields)).outcome = .error defect ∧
          ∀ other, ReferenceDefect item other ↔ other = defect) ∧
      ((∀ item ∈ items, IsObject ReferenceGrammar item) →
        ∃ references, List.Forall₂ (ObjectIs DescribesReference) items references ∧
          ((∃ names, (reviewComponent (.object fields)).outcome =
              .error (.duplicateReferences names)) ↔
            ∃ name, 2 ≤ (references.map (·.name)).count name) ∧
          (∀ names, (reviewComponent (.object fields)).outcome =
              .error (.duplicateReferences names) → NamesShared references names) ∧
          ((∀ name, (references.map (·.name)).count name < 2) →
            ∃ component, (reviewComponent (.object fields)).outcome = .ok component ∧
              component.references = references)) := by
  obtain ⟨header, service, follows⟩ := outcome_of_soundOtherwise sound given
  rw [follows]
  constructor
  · intro before item after split soundBefore malformed
    obtain ⟨defect, fails, only⟩ := readReferences_of_malformed soundBefore malformed
    exact ⟨defect, map_eq_error_iff.mpr (split ▸ fails), only⟩
  · intro soundItems
    obtain ⟨references, each⟩ := exists_forall₂_iff.mpr fun item member =>
      exists_objectIs_reference_iff.mpr (soundItems item member)
    obtain ⟨reportedIff, reportedShared, taken⟩ := readReferences_of_sound each
    simp only [map_eq_error_iff]
    refine ⟨references, each, reportedIff, reportedShared, ?_⟩
    intro single
    exact ⟨_, map_eq_ok_iff.mpr ⟨references, taken single, rfl⟩, rfl⟩

/-- The members of a component of that class with those references. -/
def referring (items : List Json) : Fields :=
  [("implementation-class", .string "demo.Widget"), ("references", .array items)]

/-- A well-formed reference of that name. -/
def referenceNamed (name : String) : Json :=
  .object [("name", .string name), ("interface", .string "demo.Service"),
    ("cardinality", .string "1..1"), ("policy", .string "static"),
    ("policy-option", .string "greedy")]

/-- Names that come up three times in any order are reported once each, and in order. -/
example :
    (reviewComponent (.object (referring
      (["log", "clock", "log", "bus", "clock", "log"].map referenceNamed)))).outcome =
        .error (.duplicateReferences ["clock", "log"]) := by
  decide

theorem permits_of_lacks {fields : Fields} {name : String} {wanted : Json → Prop}
    (lacks : Lacks fields name) : Permits fields name wanted := by
  intro value has
  cases lacks.symm.trans has

theorem soundOtherwise_referring (items : List Json) : SoundOtherwise (referring items) := by
  refine ⟨⟨⟨_, rfl, _, rfl⟩, ?_, ?_, ?_⟩, ?_⟩ <;> exact permits_of_lacks rfl

theorem isObject_referenceNamed (name : String) :
    IsObject ReferenceGrammar (referenceNamed name) := by
  refine ⟨_, rfl, ?_⟩
  constructor
  · exact ⟨_, rfl, _, rfl⟩
  · exact ⟨_, rfl, _, rfl⟩
  · exact ⟨_, rfl, "1..1", by decide, rfl⟩
  · exact ⟨_, rfl, "static", by decide, rfl⟩
  · exact ⟨_, rfl, "greedy", by decide, rfl⟩
  · exact permits_of_lacks rfl

/-- A reference without interface is reported, and not the name that others share before it. -/
theorem references_of_component_repeating :
    let clock : Json := .object [("name", .string "clock")]
    let fields := referring [referenceNamed "log", referenceNamed "log", clock]
    SoundOtherwise fields ∧
      (reviewComponent (.object fields)).outcome = .error (.missingField "interface") := by
  intro clock fields
  have malformed : ¬ IsObject ReferenceGrammar clock := by
    intro isReference
    rcases isReference with ⟨members, same, grammar⟩
    obtain rfl : _ = members := Json.object.inj same
    obtain ⟨_, has, _⟩ := grammar.interface
    cases has
  have wrong : ReferenceDefect clock (.missingField "interface") := by
    apply ReferenceDefect.field
    apply FirstDefect.further
    · intro other wrong
      cases (requiredText_fails other).mpr wrong
    · exact .found (.missing rfl)
  have sound : SoundOtherwise fields := soundOtherwise_referring _
  obtain ⟨defect, reported, only⟩ := (references_of_component sound rfl).1
    [referenceNamed "log", referenceNamed "log"] clock [] rfl
    (by simp [isObject_referenceNamed]) malformed
  rw [(only _).mp wrong]
  exact ⟨sound, reported⟩

end ConfTree.Manifest
