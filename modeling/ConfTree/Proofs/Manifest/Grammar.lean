/-
Module: ConfTree.Proofs.Manifest.Grammar
Purpose: Which documents are manifests, and which records stand in them.
Main exports:
  Manifest.ManifestGrammar, Manifest.DescribesManifest, Manifest.review_eq_ok_iff,
  Manifest.exists_describesManifest_iff, Manifest.review_accepts_grammar
-/
import ConfTree.Proofs.Manifest.Field
import ConfTree.Proofs.Manifest.Tally
import Mathlib.Data.List.Nodup

namespace ConfTree.Manifest

/-!
The grammar of a manifest is stated twice.  `ManifestGrammar` tells which documents are
manifests, in the words of the format and without any record.  `DescribesManifest` tells
which records a document describes.  The reader accepts a document with certain records
exactly if the document describes them, and a document describes some records exactly
if it is in the grammar.

Members of an object that the grammar does not name may be anything.
-/

/-! ### The grammar -/

section Values

variable (fields : Fields) (name : String)

/-- The member is there and is as wanted. -/
def Requires (wanted : Json → Prop) : Prop := ∃ value, Has fields name value ∧ wanted value

/-- The member is left out, or is as wanted.  A null is not left out. -/
def Permits (wanted : Json → Prop) : Prop := ∀ value, Has fields name value → wanted value

end Values

/-- The value is a string. -/
def IsText (value : Json) : Prop := ∃ content, value = .string content

/-- The value is a string of at least one character. -/
def IsFilledText (value : Json) : Prop := ∃ content, value = .string content ∧ content ≠ ""

/-- The value is one of those strings. -/
def IsWord (words : List String) (value : Json) : Prop := ∃ word ∈ words, value = .string word

/-- The value is a truth value. -/
def IsTruth (value : Json) : Prop := ∃ truth, value = .boolean truth

/-- The value is an object with such members. -/
def IsObject (members : Fields → Prop) (value : Json) : Prop :=
  ∃ fields, value = .object fields ∧ members fields

/-- The value is an array of such items. -/
def IsArray (items : List Json → Prop) (value : Json) : Prop :=
  ∃ list, value = .array list ∧ items list

/-- The members of a service. -/
structure ServiceGrammar (fields : Fields) : Prop where
  scope : Requires fields "scope" (IsWord ["singleton", "bundle", "prototype"])
  interfaces : Requires fields "interfaces"
    (IsArray fun items => items ≠ [] ∧ ∀ item ∈ items, IsFilledText item)

/-- The members of a reference. -/
structure ReferenceGrammar (fields : Fields) : Prop where
  name : Requires fields "name" IsText
  interface : Requires fields "interface" IsText
  cardinality : Requires fields "cardinality" (IsWord ["0..1", "1..1", "0..n", "1..n"])
  policy : Requires fields "policy" (IsWord ["static", "dynamic"])
  policyOption : Requires fields "policy-option" (IsWord ["reluctant", "greedy"])
  target : Permits fields "target" IsText

/-- What an item gives as its name, if it is an object. -/
def givenName : Json → Option Json
  | .object fields => Json.member? fields "name"
  | _ => none

/-- References of pairwise different names. -/
structure ReferencesGrammar (items : List Json) : Prop where
  each : ∀ item ∈ items, IsObject ReferenceGrammar item
  distinct : (items.map givenName).Nodup

/-- The members of a component. -/
structure ComponentGrammar (fields : Fields) : Prop where
  implementationClass : Requires fields "implementation-class" IsText
  injectReferences : Permits fields "inject-references" IsTruth
  configurationPolicy : Permits fields "configuration-policy"
    (IsWord ["ignore", "optional", "require"])
  configurationPid : Permits fields "configuration-pid" IsText
  service : Permits fields "service" (IsObject ServiceGrammar)
  references : Permits fields "references" (IsArray ReferencesGrammar)

/-- A document that is a manifest. -/
def ManifestGrammar (document : Json) : Prop :=
  IsObject
    (fun fields => Requires fields "components"
      (IsArray fun items => ∀ item ∈ items, IsObject ComponentGrammar item))
    document

/-! ### The records -/

/-- The members describe that service. -/
structure DescribesService (fields : Fields) (service : Service) : Prop where
  scope : Has fields "scope" (.string (Worded.word service.scope))
  interfaces : Has fields "interfaces" (.array (service.interfaces.map .string))
  offersSome : service.interfaces ≠ []
  filled : ∀ interface ∈ service.interfaces, interface ≠ ""

/-- The members describe that reference. -/
structure DescribesReference (fields : Fields) (reference : Reference) : Prop where
  name : Has fields "name" (.string reference.name)
  interface : Has fields "interface" (.string reference.interface)
  cardinality : Has fields "cardinality" (.string (Worded.word reference.cardinality))
  policy : Has fields "policy" (.string (Worded.word reference.policy))
  policyOption : Has fields "policy-option" (.string (Worded.word reference.policyOption))
  target : MayHave fields "target" TextIs reference.target

/-- The items describe those references, one each. -/
structure DescribesReferences (items : List Json) (references : List Reference) : Prop where
  each : List.Forall₂ (ObjectIs DescribesReference) items references
  distinct : (references.map (·.name)).Nodup

/-- The members describe that component.  A name that is not a string counts as left out,
references are injected unless the component says otherwise, and the configuration policy
is in force only beside a configuration pid. -/
structure DescribesComponent (fields : Fields) (component : Component) : Prop where
  implementationClass :
    Has fields "implementation-class" (.string component.implementationClass)
  name : ∀ content, component.name = some content ↔ Has fields "name" (.string content)
  injectReferences : ∃ given, MayHave fields "inject-references" TruthIs given ∧
    component.injectReferences = given.getD true
  configurationPolicy : ∃ given, MayHave fields "configuration-policy" ChoiceIs given ∧
    component.configurationPolicy =
      if component.configurationPid.isSome then given.getD .ignore else .ignore
  configurationPid : MayHave fields "configuration-pid" TextIs component.configurationPid
  service : MayHave fields "service" (ObjectIs DescribesService) component.service
  references : ∃ given, MayHave fields "references" (ArrayIs DescribesReferences) given ∧
    component.references = given.getD []

/-- The document describes those components, one for each item and in order. -/
def DescribesManifest (document : Json) (components : List Component) : Prop :=
  ObjectIs
    (fun fields components => ∃ items, Has fields "components" (.array items) ∧
      List.Forall₂ (ObjectIs DescribesComponent) items components)
    document components

/-! ### What the reader accepts -/

theorem readInterface_eq_ok_iff {item : Json} {interface : String} :
    readInterface item = .ok interface ↔ item = .string interface ∧ interface ≠ "" := by
  cases item with
  | string content =>
      rw [readInterface]
      split
      case isTrue blank =>
        constructor
        · exact nofun
        · rintro ⟨⟨⟩, filled⟩
          exact absurd (String.isEmpty_iff.mp blank) filled
      case isFalse filled =>
        constructor
        · rintro ⟨⟩
          exact ⟨rfl, fun blank => filled (String.isEmpty_iff.mpr blank)⟩
        · rintro ⟨⟨⟩, _⟩
          rfl
  | _ => exact ⟨nofun, fun described => nomatch described.1⟩

/-- The interfaces of a service are the contents of the items. -/
theorem forall₂_readInterface_iff {items : List Json} {interfaces : List String} :
    List.Forall₂ (fun item interface => readInterface item = .ok interface)
        items interfaces ↔
      items = interfaces.map .string ∧ ∀ interface ∈ interfaces, interface ≠ "" := by
  induction items generalizing interfaces with
  | nil =>
      rw [List.forall₂_nil_left_iff]
      constructor
      · rintro rfl
        exact ⟨rfl, nofun⟩
      · rintro ⟨noItems, _⟩
        exact List.map_eq_nil_iff.mp noItems.symm
  | cons item rest ih =>
      rw [List.forall₂_cons_left_iff]
      constructor
      · rintro ⟨first, others, readFirst, readOthers, rfl⟩
        obtain ⟨rfl, filled⟩ := readInterface_eq_ok_iff.mp readFirst
        obtain ⟨rfl, othersFilled⟩ := ih.mp readOthers
        exact ⟨rfl, List.forall_mem_cons.mpr ⟨filled, othersFilled⟩⟩
      · rintro ⟨same, filled⟩
        obtain ⟨first, others, rfl, rfl, rfl⟩ := List.map_eq_cons_iff.mp same.symm
        obtain ⟨firstFilled, othersFilled⟩ := List.forall_mem_cons.mp filled
        exact ⟨first, others, readInterface_eq_ok_iff.mpr ⟨rfl, firstFilled⟩,
          ih.mpr ⟨rfl, othersFilled⟩, rfl⟩

theorem readService_eq_ok_iff {fields : Fields} {service : Service} :
    readService fields = .ok service ↔ DescribesService fields service := by
  rw [readService, bind_eq_ok_iff]
  constructor
  · rintro ⟨scope, readScope, following⟩
    obtain ⟨items, readItems, following⟩ := bind_eq_ok_iff.mp following
    cases items with
    | nil => cases following
    | cons item rest =>
        obtain ⟨interfaces, readInterfaces, ⟨⟩⟩ := bind_eq_ok_iff.mp following
        obtain ⟨same, filled⟩ := forall₂_readInterface_iff.mp (mapM_eq_ok_iff.mp readInterfaces)
        have has := requiredArray_eq_ok_iff.mp readItems
        rw [same] at has
        refine ⟨requiredChoice_eq_ok_iff.mp readScope, has, ?_, filled⟩
        rintro rfl
        cases same
  · rintro ⟨scope, interfaces, offersSome, filled⟩
    have readInterfaces := mapM_eq_ok_iff.mpr (forall₂_readInterface_iff.mpr ⟨rfl, filled⟩)
    refine ⟨service.scope, requiredChoice_eq_ok_iff.mpr scope, ?_⟩
    refine bind_eq_ok_iff.mpr ⟨_, requiredArray_eq_ok_iff.mpr interfaces, ?_⟩
    have notEmpty : (service.interfaces.map Json.string).isEmpty = false := by
      simpa using offersSome
    rw [notEmpty]
    exact bind_eq_ok_iff.mpr ⟨_, readInterfaces, rfl⟩

/-! #### References -/

/-- How far the references have been read when there is one more. -/
def Progress.add (progress : Progress) (reference : Reference) : Progress where
  seen := countName progress.seen reference.name
  references := progress.references ++ [reference]

theorem readReference_eq_ok_iff {progress after : Progress} {item : Json} :
    readReference progress item = .ok after ↔
      ∃ reference, ObjectIs DescribesReference item reference ∧ progress.add reference = after := by
  rw [readReference, bind_eq_ok_iff]
  constructor
  · rintro ⟨fields, isObject, following⟩
    obtain ⟨name, readName, following⟩ := bind_eq_ok_iff.mp following
    obtain ⟨interface, readInterface, following⟩ := bind_eq_ok_iff.mp following
    obtain ⟨cardinality, readCardinality, following⟩ := bind_eq_ok_iff.mp following
    obtain ⟨policy, readPolicy, following⟩ := bind_eq_ok_iff.mp following
    obtain ⟨policyOption, readPolicyOption, following⟩ := bind_eq_ok_iff.mp following
    obtain ⟨target, readTarget, ⟨⟩⟩ := bind_eq_ok_iff.mp following
    let reference : Reference := { name, interface, cardinality, policy, policyOption, target }
    refine ⟨reference, ⟨fields, object_eq_ok_iff.mp isObject, ?_⟩, rfl⟩
    exact ⟨requiredText_eq_ok_iff.mp readName, requiredText_eq_ok_iff.mp readInterface,
      requiredChoice_eq_ok_iff.mp readCardinality, requiredChoice_eq_ok_iff.mp readPolicy,
      requiredChoice_eq_ok_iff.mp readPolicyOption, optionalText_eq_ok_iff.mp readTarget⟩
  · rintro ⟨reference, ⟨fields, isObject, described⟩, rfl⟩
    obtain ⟨name, interface, cardinality, policy, policyOption, target⟩ := described
    refine ⟨fields, object_eq_ok_iff.mpr isObject, ?_⟩
    rw [requiredText_eq_ok_iff.mpr name, requiredText_eq_ok_iff.mpr interface,
      requiredChoice_eq_ok_iff.mpr cardinality, requiredChoice_eq_ok_iff.mpr policy,
      requiredChoice_eq_ok_iff.mpr policyOption, optionalText_eq_ok_iff.mpr target]
    rfl

/-- Items are read to the end if each of them describes a reference. -/
theorem foldlM_readReference_eq_ok_iff {items : List Json} {progress after : Progress} :
    items.foldlM readReference progress = .ok after ↔
      ∃ references, List.Forall₂ (ObjectIs DescribesReference) items references ∧
        references.foldl Progress.add progress = after := by
  induction items generalizing progress with
  | nil =>
      rw [List.foldlM_nil]
      constructor
      · rintro ⟨⟩
        exact ⟨[], .nil, rfl⟩
      · rintro ⟨_, ⟨⟩, rfl⟩
        rfl
  | cons item rest ih =>
      rw [List.foldlM_cons, bind_eq_ok_iff]
      constructor
      · rintro ⟨next, readFirst, readRest⟩
        obtain ⟨reference, described, rfl⟩ := readReference_eq_ok_iff.mp readFirst
        obtain ⟨references, each, rfl⟩ := ih.mp readRest
        exact ⟨reference :: references, .cons described each, rfl⟩
      · rintro ⟨_, _ | ⟨described, each⟩, rfl⟩
        exact ⟨_, readReference_eq_ok_iff.mpr ⟨_, described, rfl⟩, ih.mpr ⟨_, each, rfl⟩⟩

/-- References that are added are counted by their names and kept in their order. -/
theorem foldl_add {names : List String} {progress : Progress}
    (counts : Counts progress.seen names) (references : List Reference) :
    Counts (references.foldl Progress.add progress).seen (names ++ references.map (·.name)) ∧
      (references.foldl Progress.add progress).references = progress.references ++ references := by
  induction references generalizing names progress with
  | nil =>
      rw [List.map_nil, List.append_nil, List.append_nil]
      exact ⟨counts, rfl⟩
  | cons reference rest ih =>
      have next := @ih _ (progress.add reference) (counts.countName reference.name)
      rwa [List.append_assoc, Progress.add, List.append_assoc] at next

/-- Once all items are read, the names that were counted are those of the references. -/
theorem readReferences_of_forall₂ {items : List Json} {references : List Reference}
    (each : List.Forall₂ (ObjectIs DescribesReference) items references) :
    ∃ seen, Counts seen (references.map (·.name)) ∧
      readReferences items =
        match repeated seen with
        | [] => .ok references
        | names => .error (.duplicateReferences names) := by
  have start : Counts Progress.start.seen [] := counts_nothing
  obtain ⟨counts, inOrder⟩ := foldl_add start references
  have readAll : items.foldlM readReference .start = .ok (references.foldl .add .start) :=
    foldlM_readReference_eq_ok_iff.mpr ⟨references, each, rfl⟩
  generalize references.foldl Progress.add .start = progress at counts inOrder readAll
  obtain rfl : progress.references = references := inOrder
  refine ⟨progress.seen, counts, ?_⟩
  rw [readReferences, readAll]
  rfl

theorem readReferences_eq_ok_iff {items : List Json} {references : List Reference} :
    readReferences items = .ok references ↔ DescribesReferences items references := by
  constructor
  · intro success
    have readEach := success
    rw [readReferences, bind_eq_ok_iff] at readEach
    obtain ⟨_, readAll, _⟩ := readEach
    obtain ⟨found, each, _⟩ := foldlM_readReference_eq_ok_iff.mp readAll
    obtain ⟨seen, counts, reads⟩ := readReferences_of_forall₂ each
    rw [reads] at success
    split at success
    case h_1 nothing =>
      cases success
      exact ⟨each, (repeated_eq_nil_iff counts).mp nothing⟩
    case h_2 => cases success
  · rintro ⟨each, distinct⟩
    obtain ⟨seen, counts, reads⟩ := readReferences_of_forall₂ each
    rw [reads, (repeated_eq_nil_iff counts).mpr distinct]

/-! #### Components -/

/-- What the members say about the fields that are checked before the warning. -/
structure DescribesHeader (fields : Fields) (header : Header) : Prop where
  implementationClass : Has fields "implementation-class" (.string header.implementationClass)
  name : header.name = readName fields
  injectReferences : ∃ given, MayHave fields "inject-references" TruthIs given ∧
    header.injectReferences = given.getD true
  policy : MayHave fields "configuration-policy" ChoiceIs header.policy
  pid : MayHave fields "configuration-pid" TextIs header.pid

theorem readName_eq_some_iff {fields : Fields} {content : String} :
    readName fields = some content ↔ Has fields "name" (.string content) := by
  rw [readName, Has]
  cases Json.member? fields "name" with
  | none => simp
  | some value => cases value <;> simp

theorem readPolicy_eq_ok_iff {value : Json} {policy : ConfigurationPolicy} :
    readPolicy value = .ok policy ↔ ChoiceIs value policy := by
  rw [readPolicy, bind_eq_ok_iff]
  simp only [text_eq_ok_iff, TextIs, choose_eq_ok_iff, exists_eq_right, ChoiceIs]

theorem readHeader_eq_ok_iff {fields : Fields} {header : Header} :
    readHeader fields = .ok header ↔ DescribesHeader fields header := by
  have readsTruth : ∀ given, optional fields "inject-references" (truth "inject-references") =
      .ok given ↔ MayHave fields "inject-references" TruthIs given :=
    fun _ => optional_eq_ok_iff fun _ _ => truth_eq_ok_iff
  have readsPolicy : ∀ given, optional fields "configuration-policy" readPolicy =
      .ok given ↔ MayHave fields "configuration-policy" ChoiceIs given :=
    fun _ => optional_eq_ok_iff fun _ _ => readPolicy_eq_ok_iff
  rw [readHeader, bind_eq_ok_iff]
  constructor
  · rintro ⟨implementationClass, readClass, following⟩
    obtain ⟨injectReferences, readInject, following⟩ := bind_eq_ok_iff.mp following
    obtain ⟨policy, readPolicy, following⟩ := bind_eq_ok_iff.mp following
    obtain ⟨pid, readPid, ⟨⟩⟩ := bind_eq_ok_iff.mp following
    exact ⟨requiredText_eq_ok_iff.mp readClass, rfl,
      ⟨injectReferences, (readsTruth _).mp readInject, rfl⟩, (readsPolicy _).mp readPolicy,
      optionalText_eq_ok_iff.mp readPid⟩
  · rintro ⟨implementationClass, name, ⟨given, injectReferences, default⟩, policy, pid⟩
    refine ⟨_, requiredText_eq_ok_iff.mpr implementationClass, ?_⟩
    rw [(readsTruth _).mpr injectReferences, (readsPolicy _).mpr policy,
      optionalText_eq_ok_iff.mpr pid]
    cases header
    cases name
    cases default
    rfl

theorem readItem_eq_ok_iff {item : Json} {fields : Fields} {header : Header} :
    readItem item = .ok (fields, header) ↔
      item = .object fields ∧ DescribesHeader fields header := by
  rw [readItem, bind_eq_ok_iff]
  simp only [object_eq_ok_iff]
  constructor
  · rintro ⟨found, rfl, following⟩
    obtain ⟨read, readsHeader, ⟨⟩⟩ := bind_eq_ok_iff.mp following
    exact ⟨rfl, readHeader_eq_ok_iff.mp readsHeader⟩
  · rintro ⟨rfl, described⟩
    exact ⟨fields, rfl, bind_eq_ok_iff.mpr ⟨header, readHeader_eq_ok_iff.mpr described, rfl⟩⟩

theorem effectivePolicy_eq (header : Header) :
    header.effectivePolicy =
      if header.pid.isSome then header.policy.getD .ignore else .ignore := by
  rw [Header.effectivePolicy]
  cases header.policy <;> cases header.pid <;> rfl

theorem readServiceValue_eq_ok_iff {value : Json} {service : Service} :
    (object "service" "an object" value >>= readService) = .ok service ↔
      ObjectIs DescribesService value service := by
  rw [bind_eq_ok_iff]
  simp only [object_eq_ok_iff, readService_eq_ok_iff, ObjectIs]

theorem readReferencesValue_eq_ok_iff {value : Json} {references : List Reference} :
    (array "references" value >>= readReferences) = .ok references ↔
      ArrayIs DescribesReferences value references := by
  rw [bind_eq_ok_iff]
  simp only [array_eq_ok_iff, readReferences_eq_ok_iff, ArrayIs]

theorem readBody_eq_ok_iff {fields : Fields} {header : Header} {component : Component} :
    readBody fields header = .ok component ↔
      ∃ service references,
        MayHave fields "service" (ObjectIs DescribesService) service ∧
        MayHave fields "references" (ArrayIs DescribesReferences) references ∧
        component = header.component service (references.getD []) := by
  rw [readBody, bind_eq_ok_iff]
  apply exists_congr
  intro service
  rw [optional_eq_ok_iff fun _ _ => readServiceValue_eq_ok_iff, bind_eq_ok_iff, ← exists_and_left]
  apply exists_congr
  intro references
  rw [optional_eq_ok_iff fun _ _ => readReferencesValue_eq_ok_iff]
  constructor
  · intro described
    rcases described with ⟨hasService, hasReferences, ⟨⟩⟩
    exact ⟨hasService, hasReferences, rfl⟩
  · intro described
    rcases described with ⟨hasService, hasReferences, rfl⟩
    exact ⟨hasService, hasReferences, rfl⟩

/-- Header and remaining fields together are what the members say of a component. -/
theorem describesComponent_iff {fields : Fields} {component : Component} :
    DescribesComponent fields component ↔
      ∃ header, DescribesHeader fields header ∧ readBody fields header = .ok component := by
  constructor
  · intro described
    obtain ⟨policy, hasPolicy, inForce⟩ := described.configurationPolicy
    obtain ⟨references, hasReferences, refersTo⟩ := described.references
    refine ⟨⟨component.implementationClass, component.name, component.injectReferences, policy,
      component.configurationPid⟩, ?_, ?_⟩
    · refine ⟨described.implementationClass, ?_, described.injectReferences, hasPolicy,
        described.configurationPid⟩
      apply Option.ext
      intro content
      exact (described.name content).trans readName_eq_some_iff.symm
    · rw [readBody_eq_ok_iff]
      refine ⟨component.service, references, described.service, hasReferences, ?_⟩
      rw [Header.component, effectivePolicy_eq, ← inForce, ← refersTo]
  · intro read
    rcases read with ⟨header, described, readsBody⟩
    obtain ⟨service, references, hasService, hasReferences, rfl⟩ :=
      readBody_eq_ok_iff.mp readsBody
    refine ⟨described.implementationClass, ?_, described.injectReferences,
      ⟨header.policy, described.policy, effectivePolicy_eq header⟩, described.pid, hasService,
      ⟨references, hasReferences, rfl⟩⟩
    intro content
    rw [← readName_eq_some_iff, ← described.name]
    rfl

/-- A component is accepted if the item describes it. -/
theorem reviewComponent_eq_ok_iff {item : Json} {component : Component} :
    (reviewComponent item).outcome = .ok component ↔
      ObjectIs DescribesComponent item component := by
  rw [reviewComponent]
  cases read : readItem item with
  | error defect =>
      constructor
      · exact nofun
      · intro described
        obtain ⟨fields, same, members⟩ := described
        obtain ⟨header, describesHeader, _⟩ := describesComponent_iff.mp members
        cases read.symm.trans (readItem_eq_ok_iff.mpr ⟨same, describesHeader⟩)
  | ok found =>
      rcases found with ⟨fields, header⟩
      obtain ⟨rfl, describesHeader⟩ := readItem_eq_ok_iff.mp read
      constructor
      · intro readsBody
        exact ⟨fields, rfl, describesComponent_iff.mpr ⟨header, describesHeader, readsBody⟩⟩
      · intro described
        rcases described with ⟨_, ⟨⟩, members⟩
        obtain ⟨other, describesOther, readsBody⟩ := describesComponent_iff.mp members
        cases read.symm.trans (readItem_eq_ok_iff.mpr ⟨rfl, describesOther⟩)
        exact readsBody

/-- Components are accepted if the items describe them one by one. -/
theorem reviewComponents_eq_ok_iff {items : List Json} {components : List Component} :
    (reviewComponents items).outcome = .ok components ↔
      List.Forall₂ (ObjectIs DescribesComponent) items components := by
  induction items generalizing components with
  | nil =>
      rw [List.forall₂_nil_left_iff]
      constructor
      · rintro ⟨⟩
        rfl
      · rintro rfl
        rfl
  | cons item rest ih =>
      rw [List.forall₂_cons_left_iff, reviewComponents]
      simp only [← reviewComponent_eq_ok_iff, ← ih]
      cases (reviewComponent item).outcome with
      | error defect =>
          constructor
          · exact nofun
          · intro described
            obtain ⟨first, others, ⟨⟩, _⟩ := described
      | ok first =>
          constructor
          · intro accepted
            obtain ⟨others, acceptsOthers, rfl⟩ := map_eq_ok_iff.mp accepted
            exact ⟨first, others, rfl, acceptsOthers, rfl⟩
          · intro described
            rcases described with ⟨_, others, ⟨⟩, acceptsOthers, rfl⟩
            exact map_eq_ok_iff.mpr ⟨others, acceptsOthers, rfl⟩

/-- A document is accepted with those components if it describes them. -/
theorem review_eq_ok_iff {document : Json} {components : List Component} :
    (review document).outcome = .ok components ↔ DescribesManifest document components := by
  have readsItems : ∀ items, componentItems document = .ok items ↔
      ObjectIs (fun fields items => Has fields "components" (.array items)) document items := by
    intro items
    rw [componentItems, bind_eq_ok_iff]
    simp only [object_eq_ok_iff, requiredArray_eq_ok_iff, ObjectIs]
  rw [review]
  cases read : componentItems document with
  | error defect =>
      constructor
      · exact nofun
      · intro described
        rcases described with ⟨fields, same, items, has, _⟩
        cases read.symm.trans ((readsItems items).mpr ⟨fields, same, has⟩)
  | ok items =>
      obtain ⟨fields, rfl, has⟩ := (readsItems items).mp read
      rw [reviewComponents_eq_ok_iff]
      constructor
      · intro described
        exact ⟨fields, rfl, items, has, described⟩
      · intro described
        rcases described with ⟨_, ⟨⟩, others, hasOthers, described⟩
        cases has.symm.trans hasOthers
        exact described

/-! ### Which documents describe records -/

/-- A member that must be there describes something if it is as wanted. -/
theorem exists_has_iff {α : Type} {fields : Fields} {name : String} {value : α → Json}
    {wanted : Json → Prop} (described : ∀ found, (∃ result, found = value result) ↔ wanted found) :
    (∃ result, Has fields name (value result)) ↔ Requires fields name wanted := by
  constructor
  · intro has
    rcases has with ⟨result, has⟩
    exact ⟨value result, has, (described _).mp ⟨result, rfl⟩⟩
  · intro has
    rcases has with ⟨found, has, asWanted⟩
    obtain ⟨result, rfl⟩ := (described found).mpr asWanted
    exact ⟨result, has⟩

/-- A member that may be left out describes something if it is as wanted. -/
theorem exists_mayHave_iff_permits {α : Type} {fields : Fields} {name : String}
    {relates : Json → α → Prop} {wanted : Json → Prop}
    (described : ∀ found, (∃ result, relates found result) ↔ wanted found) :
    (∃ result, MayHave fields name relates result) ↔ Permits fields name wanted := by
  rw [exists_mayHave_iff]
  simp only [described, Permits]

theorem exists_objectIs_iff {α : Type} {members : Fields → α → Prop} {wanted : Fields → Prop}
    (described : ∀ fields, (∃ result, members fields result) ↔ wanted fields) {value : Json} :
    (∃ result, ObjectIs members value result) ↔ IsObject wanted value := by
  simp only [ObjectIs, IsObject, ← described]
  rw [exists_comm]
  simp only [exists_and_left]

theorem exists_arrayIs_iff {α : Type} {items : List Json → α → Prop} {wanted : List Json → Prop}
    (described : ∀ list, (∃ result, items list result) ↔ wanted list) {value : Json} :
    (∃ result, ArrayIs items value result) ↔ IsArray wanted value := by
  simp only [ArrayIs, IsArray, ← described]
  rw [exists_comm]
  simp only [exists_and_left]

theorem exists_textIs_iff {value : Json} : (∃ content, TextIs value content) ↔ IsText value :=
  Iff.rfl

theorem exists_describesService_iff {fields : Fields} :
    (∃ service, DescribesService fields service) ↔ ServiceGrammar fields := by
  constructor
  · intro described
    rcases described with ⟨service, scope, interfaces, offersSome, filled⟩
    constructor
    · exact (exists_has_iff fun _ => exists_choiceIs_iff rfl).mp ⟨service.scope, scope⟩
    · refine ⟨_, interfaces, _, rfl, ?_, ?_⟩
      · exact fun none => offersSome (List.map_eq_nil_iff.mp none)
      · intro item member
        rcases List.mem_map.mp member with ⟨interface, isInterface, rfl⟩
        exact ⟨interface, rfl, filled interface isInterface⟩
  · intro grammar
    rcases grammar with ⟨scope, value, has, items, rfl, notEmpty, each⟩
    obtain ⟨scope, hasScope⟩ :=
      (exists_has_iff fun _ => exists_choiceIs_iff (α := Scope) rfl).mpr scope
    have readable : ∀ item ∈ items, ∃ interface, readInterface item = .ok interface := by
      intro item member
      rcases each item member with ⟨interface, same, filled⟩
      exact ⟨interface, readInterface_eq_ok_iff.mpr ⟨same, filled⟩⟩
    obtain ⟨interfaces, readEach⟩ := exists_forall₂_iff.mpr readable
    obtain ⟨rfl, filled⟩ := forall₂_readInterface_iff.mp readEach
    refine ⟨⟨scope, interfaces⟩, hasScope, has, ?_, filled⟩
    rintro rfl
    exact notEmpty rfl

theorem exists_describesReference_iff {fields : Fields} :
    (∃ reference, DescribesReference fields reference) ↔ ReferenceGrammar fields := by
  have texts : ∀ found, (∃ content, found = Json.string content) ↔ IsText found := fun _ => Iff.rfl
  constructor
  · intro described
    rcases described with ⟨reference, name, interface, cardinality, policy, policyOption, target⟩
    constructor
    · exact (exists_has_iff texts).mp ⟨_, name⟩
    · exact (exists_has_iff texts).mp ⟨_, interface⟩
    · exact (exists_has_iff fun _ => exists_choiceIs_iff rfl).mp ⟨_, cardinality⟩
    · exact (exists_has_iff fun _ => exists_choiceIs_iff rfl).mp ⟨_, policy⟩
    · exact (exists_has_iff fun _ => exists_choiceIs_iff rfl).mp ⟨_, policyOption⟩
    · exact (exists_mayHave_iff_permits fun _ => exists_textIs_iff).mp ⟨_, target⟩
  · intro grammar
    rcases grammar with ⟨name, interface, cardinality, policy, policyOption, target⟩
    obtain ⟨name, hasName⟩ := (exists_has_iff texts).mpr name
    obtain ⟨interface, hasInterface⟩ := (exists_has_iff texts).mpr interface
    obtain ⟨cardinality, hasCardinality⟩ :=
      (exists_has_iff fun _ => exists_choiceIs_iff (α := Cardinality) rfl).mpr cardinality
    obtain ⟨policy, hasPolicy⟩ :=
      (exists_has_iff fun _ => exists_choiceIs_iff (α := ReferencePolicy) rfl).mpr policy
    obtain ⟨policyOption, hasPolicyOption⟩ :=
      (exists_has_iff fun _ => exists_choiceIs_iff (α := PolicyOption) rfl).mpr policyOption
    obtain ⟨target, mayHaveTarget⟩ :=
      (exists_mayHave_iff_permits fun _ => exists_textIs_iff).mpr target
    exact ⟨⟨name, interface, cardinality, policy, policyOption, target⟩, hasName, hasInterface,
      hasCardinality, hasPolicy, hasPolicyOption, mayHaveTarget⟩

theorem exists_objectIs_reference_iff {item : Json} :
    (∃ reference, ObjectIs DescribesReference item reference) ↔
      IsObject ReferenceGrammar item :=
  exists_objectIs_iff fun _ => exists_describesReference_iff

/-- Items that describe references give the names of those references. -/
theorem map_givenName {items : List Json} {references : List Reference}
    (each : List.Forall₂ (ObjectIs DescribesReference) items references) :
    items.map givenName = references.map fun reference => some (.string reference.name) := by
  induction each with
  | nil => rfl
  | cons first _ ih =>
      rcases first with ⟨fields, rfl, described⟩
      rw [List.map_cons, List.map_cons, ih, givenName, described.name]

theorem exists_describesReferences_iff {items : List Json} :
    (∃ references, DescribesReferences items references) ↔ ReferencesGrammar items := by
  have sameNames : ∀ references, List.Forall₂ (ObjectIs DescribesReference) items references →
      ((items.map givenName).Nodup ↔ (references.map (·.name)).Nodup) := by
    intro references each
    have names : items.map givenName =
        (references.map (·.name)).map fun name => some (Json.string name) := by
      rw [map_givenName each, List.map_map]
      rfl
    rw [names]
    apply List.nodup_map_iff
    intro first second same
    cases same
    rfl
  constructor
  · intro described
    rcases described with ⟨references, each, distinct⟩
    constructor
    · intro item member
      exact exists_objectIs_reference_iff.mp (exists_forall₂_iff.mp ⟨references, each⟩ item member)
    · exact (sameNames references each).mpr distinct
  · intro grammar
    rcases grammar with ⟨each, distinct⟩
    obtain ⟨references, each⟩ :=
      exists_forall₂_iff.mpr fun item member => exists_objectIs_reference_iff.mpr (each item member)
    exact ⟨references, each, (sameNames references each).mp distinct⟩

theorem exists_describesComponent_iff {fields : Fields} :
    (∃ component, DescribesComponent fields component) ↔ ComponentGrammar fields := by
  have texts : ∀ found, (∃ content, found = Json.string content) ↔ IsText found := fun _ => Iff.rfl
  have truths : ∀ found, (∃ truth, TruthIs found truth) ↔ IsTruth found := fun _ => Iff.rfl
  have services : ∀ found, (∃ service, ObjectIs DescribesService found service) ↔
      IsObject ServiceGrammar found :=
    fun _ => exists_objectIs_iff fun _ => exists_describesService_iff
  have references : ∀ found, (∃ references, ArrayIs DescribesReferences found references) ↔
      IsArray ReferencesGrammar found :=
    fun _ => exists_arrayIs_iff fun _ => exists_describesReferences_iff
  constructor
  · intro described
    rcases described with ⟨component, implementationClass, _, ⟨inject, hasInject, _⟩,
      ⟨policy, hasPolicy, _⟩, pid, service, ⟨given, hasReferences, _⟩⟩
    constructor
    · exact (exists_has_iff texts).mp ⟨_, implementationClass⟩
    · exact (exists_mayHave_iff_permits truths).mp ⟨_, hasInject⟩
    · exact (exists_mayHave_iff_permits fun _ => exists_choiceIs_iff rfl).mp ⟨_, hasPolicy⟩
    · exact (exists_mayHave_iff_permits fun _ => exists_textIs_iff).mp ⟨_, pid⟩
    · exact (exists_mayHave_iff_permits services).mp ⟨_, service⟩
    · exact (exists_mayHave_iff_permits references).mp ⟨_, hasReferences⟩
  · intro grammar
    rcases grammar with ⟨implementationClass, inject, policy, pid, service, given⟩
    obtain ⟨implementationClass, hasClass⟩ := (exists_has_iff texts).mpr implementationClass
    obtain ⟨inject, hasInject⟩ := (exists_mayHave_iff_permits truths).mpr inject
    obtain ⟨policy, hasPolicy⟩ :=
      (exists_mayHave_iff_permits fun _ =>
        exists_choiceIs_iff (α := ConfigurationPolicy) rfl).mpr policy
    obtain ⟨pid, hasPid⟩ := (exists_mayHave_iff_permits fun _ => exists_textIs_iff).mpr pid
    obtain ⟨service, hasService⟩ := (exists_mayHave_iff_permits services).mpr service
    obtain ⟨given, hasReferences⟩ := (exists_mayHave_iff_permits references).mpr given
    let header : Header := ⟨implementationClass, readName fields, inject.getD true, policy, pid⟩
    refine ⟨header.component service (given.getD []), describesComponent_iff.mpr ⟨header, ?_, ?_⟩⟩
    · exact ⟨hasClass, rfl, ⟨inject, hasInject, rfl⟩, hasPolicy, hasPid⟩
    · exact readBody_eq_ok_iff.mpr ⟨service, given, hasService, hasReferences, rfl⟩

/-- A document describes components if it is in the grammar. -/
theorem exists_describesManifest_iff {document : Json} :
    (∃ components, DescribesManifest document components) ↔ ManifestGrammar document := by
  apply exists_objectIs_iff
  intro fields
  rw [exists_comm]
  simp only [exists_and_left, exists_forall₂_iff, Requires, IsArray,
    exists_objectIs_iff fun _ => exists_describesComponent_iff]
  constructor
  · intro described
    rcases described with ⟨items, has, each⟩
    exact ⟨_, has, items, rfl, each⟩
  · intro grammar
    rcases grammar with ⟨_, has, items, rfl, each⟩
    exact ⟨items, has, each⟩

/-- A document is accepted exactly if it is in the grammar of manifests, and the records
that come of it are exactly those that it describes, one for each component and in
their order. -/
theorem review_accepts_grammar (document : Json) :
    ((∃ components, (review document).outcome = .ok components) ↔ ManifestGrammar document) ∧
      ∀ components, (review document).outcome = .ok components ↔
        DescribesManifest document components := by
  constructor
  · rw [← exists_describesManifest_iff]
    exact exists_congr fun components => review_eq_ok_iff
  · intro components
    exact review_eq_ok_iff

end ConfTree.Manifest
