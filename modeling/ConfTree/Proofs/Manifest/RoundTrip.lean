/-
Module: ConfTree.Proofs.Manifest.RoundTrip
Purpose: The records of a manifest, written as JSON, are a manifest of those records.
Main exports:
  Manifest.Component.Settled, Manifest.review_recordsToJson,
  Manifest.legible_recordsToJson, Manifest.read_records
-/
import ConfTree.Manifest.Json
import ConfTree.Proofs.Json.RoundTrip
import ConfTree.Proofs.Manifest.Grammar

namespace ConfTree.Manifest

/-!
Not every record can be read back from its document.  A policy other than `ignore` is
lost without a configuration pid, and references of one name are refused, as is a
service without interfaces.  The records that come of a manifest have none of these
faults: they are settled.  A settled record is described by its own document, which is
nested only a few levels deep and so is read back from any form of its text.
-/

/-! ### Settled records -/

/-- A component without the faults that a manifest could not have. -/
structure Component.Settled (component : Component) : Prop where
  configured : component.configurationPid = none → component.configurationPolicy = .ignore
  offers : ∀ service ∈ component.service,
    service.interfaces ≠ [] ∧ ∀ interface ∈ service.interfaces, interface ≠ ""
  distinct : (component.references.map (·.name)).Nodup

/-- What a manifest describes is settled. -/
theorem DescribesComponent.settled {fields : Fields} {component : Component}
    (described : DescribesComponent fields component) : component.Settled := by
  constructor
  · intro noPid
    obtain ⟨given, _, inForce⟩ := described.configurationPolicy
    rw [inForce, noPid]
    rfl
  · intro service offered
    have given := described.service
    rw [Option.mem_def.mp offered] at given
    cases given with
    | present has related =>
        rcases related with ⟨members, _, describesService⟩
        exact ⟨describesService.offersSome, describesService.filled⟩
  · obtain ⟨given, references, refersTo⟩ := described.references
    rw [refersTo]
    cases references with
    | absent => exact List.nodup_nil
    | present has related =>
        rcases related with ⟨items, _, describesReferences⟩
        exact describesReferences.distinct

theorem settled_of_describesManifest {document : Json} {components : List Component}
    (described : DescribesManifest document components) :
    ∀ component ∈ components, component.Settled := by
  rcases described with ⟨fields, _, items, _, each⟩
  clear * - each
  induction each with
  | nil => exact List.forall_mem_nil _
  | cons first _ ih =>
      rcases first with ⟨members, _, describesComponent⟩
      exact List.forall_mem_cons.mpr ⟨describesComponent.settled, ih⟩

/-! ### Members of a written record -/

@[simp] theorem member?_nil (name : String) : Json.member? [] name = none := rfl

@[simp] theorem member?_cons (other name : String) (value : Json) (rest : Fields) :
    Json.member? ((other, value) :: rest) name =
      if other = name then some value else Json.member? rest name := by
  by_cases same : other = name <;> simp [Json.member?, same]

@[simp] theorem member?_append (first second : Fields) (name : String) :
    Json.member? (first ++ second) name =
      (Json.member? first name).or (Json.member? second name) := by
  rw [Json.member?, Json.member?, Json.member?, List.find?_append]
  cases first.find? fun member => member.1 == name <;> rfl

@[simp] theorem member?_optionalMember {α : Type} (other name : String) (encode : α → Json)
    (content : Option α) :
    Json.member? (optionalMember other encode content) name =
      if other = name then content.map encode else none := by
  cases content with
  | none => simp [optionalMember]
  | some content => simp [optionalMember]

/-- A member that is written only if there is something to write. -/
theorem mayHave_of_member? {α : Type} {fields : Fields} {name : String}
    {relates : Json → α → Prop} {encode : α → Json} {given : Option α}
    (found : Json.member? fields name = given.map encode)
    (related : ∀ content ∈ given, relates (encode content) content) :
    MayHave fields name relates given := by
  cases given with
  | none => exact .absent found
  | some content => exact .present found (related content rfl)

/-! ### Written records describe themselves -/

theorem describesService_toJson {service : Service} (offersSome : service.interfaces ≠ [])
    (filled : ∀ interface ∈ service.interfaces, interface ≠ "") :
    ObjectIs DescribesService service.toJson service := by
  refine ⟨_, rfl, ?_, rfl, offersSome, filled⟩
  rw [name_eq_word]
  rfl

theorem describesReference_members (reference : Reference) :
    DescribesReference reference.members reference := by
  constructor
  case name => rfl
  case interface => rfl
  case cardinality => simp [Has, Reference.members]
  case policy => simp [Has, Reference.members]
  case policyOption => simp [Has, Reference.members]
  case target =>
    refine mayHave_of_member? (?_ : _ = reference.target.map .string) ?_
    · simp [Reference.members]
    · intro content _
      rfl

theorem describesReferences_toJson {references : List Reference}
    (distinct : (references.map (·.name)).Nodup) :
    DescribesReferences (references.map Reference.toJson) references := by
  refine ⟨?_, distinct⟩
  rw [List.forall₂_map_left_iff, List.forall₂_same]
  intro reference _
  exact ⟨_, rfl, describesReference_members reference⟩

theorem Component.Settled.describes_members {component : Component}
    (settled : component.Settled) : DescribesComponent component.members component := by
  constructor
  case implementationClass => rfl
  case name =>
    intro content
    simp [Has, Component.members]
  case injectReferences =>
    refine ⟨some component.injectReferences, .present ?_ rfl, rfl⟩
    simp [Has, Component.members]
  case configurationPolicy =>
    refine ⟨some component.configurationPolicy, .present ?_ rfl, ?_⟩
    · simp [Has, Component.members]
    · split
      case isTrue => rfl
      case isFalse noPid => exact settled.configured (by simpa using noPid)
  case configurationPid =>
    refine mayHave_of_member? (?_ : _ = component.configurationPid.map .string) ?_
    · simp [Component.members]
    · intro content _
      rfl
  case service =>
    refine mayHave_of_member? (?_ : _ = component.service.map Service.toJson) ?_
    · simp [Component.members]
    · intro service offered
      exact describesService_toJson (settled.offers service offered).1
        (settled.offers service offered).2
  case references =>
    refine ⟨some component.references, .present ?_
      ⟨_, rfl, describesReferences_toJson settled.distinct⟩, rfl⟩
    simp [Has, Component.members]

/-- The document of settled records is reviewed as those records. -/
theorem review_recordsToJson {components : List Component}
    (settled : ∀ component ∈ components, component.Settled) :
    (review (.object [("components", recordsToJson components)])).outcome = .ok components := by
  rw [review_eq_ok_iff]
  refine ⟨_, rfl, _, rfl, ?_⟩
  rw [List.forall₂_map_left_iff, List.forall₂_same]
  intro component member
  exact ⟨_, rfl, (settled component member).describes_members⟩

/-! ### The text of records -/

/-- A document that reads back, with no more than so many containers inside each other. -/
structure Modest (limit : Nat) (json : Json) : Prop where
  legible : json.Legible
  shallow : json.depth ≤ limit

namespace Modest

variable {limit : Nat}

theorem text (content : String) : Modest limit (.string content) :=
  ⟨.string content, by simp [Json.depth]⟩

theorem truth (value : Bool) : Modest limit (.boolean value) :=
  ⟨.boolean value, by simp [Json.depth]⟩

theorem array {items : List Json} (modest : ∀ item ∈ items, Modest limit item) :
    Modest (limit + 1) (.array items) := by
  constructor
  · exact .array fun item member => (modest item member).legible
  · rw [Json.depth, Nat.add_comm, Nat.add_le_add_iff_right, Json.deepest_le_iff,
      List.forall_mem_map]
    exact fun item member => (modest item member).shallow

theorem object {members : Fields} (distinct : (members.map (·.1)).Nodup)
    (modest : ∀ member ∈ members, Modest limit member.2) :
    Modest (limit + 1) (.object members) := by
  constructor
  · exact .object distinct fun member isMember => (modest member isMember).legible
  · rw [Json.depth, Nat.add_comm, Nat.add_le_add_iff_right, Json.deepest_le_iff,
      List.forall_mem_map]
    exact fun member isMember => (modest member isMember).shallow

theorem optionalMember {α : Type} (name : String) {encode : α → Json} {content : Option α}
    (modest : ∀ found ∈ content, Modest limit (encode found)) :
    ∀ member ∈ optionalMember name encode content, Modest limit member.2 := by
  cases content with
  | none => exact List.forall_mem_nil _
  | some found => exact (List.forall_mem_singleton).mpr (modest found rfl)

end Modest

theorem names_optionalMember {α : Type} (name : String) (encode : α → Json)
    (content : Option α) :
    ((optionalMember name encode content).map (·.1)).Sublist [name] := by
  cases content with
  | none => exact List.nil_sublist _
  | some content => exact List.Sublist.refl _

theorem modest_service (service : Service) : Modest 2 service.toJson := by
  apply Modest.object
  · show ["scope", "interfaces"].Nodup
    decide
  · refine List.forall_mem_cons.mpr ⟨.text _, List.forall_mem_singleton.mpr (.array ?_)⟩
    rw [List.forall_mem_map]
    intro interface _
    exact .text interface

theorem modest_reference (reference : Reference) : Modest 1 reference.toJson := by
  apply Modest.object
  · have names : (["name", "interface", "cardinality", "policy", "policy-option"] ++
        (optionalMember "target" .string reference.target).map (·.1)).Sublist
          ["name", "interface", "cardinality", "policy", "policy-option", "target"] :=
      (List.Sublist.refl _).append (names_optionalMember "target" .string reference.target)
    exact List.Nodup.sublist names (by decide)
  · rw [Reference.members, List.forall_mem_append]
    constructor
    · simp [Modest.text]
    · exact .optionalMember "target" fun content _ => .text content

theorem names_component (component : Component) :
    (component.members.map (·.1)).Sublist
      ["implementation-class", "name", "inject-references", "configuration-policy",
        "configuration-pid", "service", "references"] := by
  simp only [Component.members, List.map_append]
  exact (((((List.Sublist.refl ["implementation-class"]).append
    (names_optionalMember "name" .string component.name)).append
    (List.Sublist.refl ["inject-references", "configuration-policy"])).append
    (names_optionalMember "configuration-pid" .string component.configurationPid)).append
    (names_optionalMember "service" Service.toJson component.service)).append
    (List.Sublist.refl ["references"])

theorem modest_component (component : Component) : Modest 3 component.toJson := by
  apply Modest.object
  · exact List.Nodup.sublist (names_component component) (by decide)
  · simp only [Component.members, List.forall_mem_append]
    refine ⟨⟨⟨⟨⟨?_, ?_⟩, ?_⟩, ?_⟩, ?_⟩, ?_⟩
    · simp [Modest.text]
    · exact .optionalMember "name" fun content _ => .text content
    · simp [Modest.text, Modest.truth]
    · exact .optionalMember "configuration-pid" fun content _ => .text content
    · exact .optionalMember "service" fun service _ => modest_service service
    · rw [List.forall_mem_singleton]
      apply Modest.array
      rw [List.forall_mem_map]
      intro reference _
      exact modest_reference reference

theorem modest_recordsToJson (components : List Component) :
    Modest 4 (recordsToJson components) := by
  apply Modest.array
  rw [List.forall_mem_map]
  intro component _
  exact modest_component component

/-- The text of a manifest around the text of its components. -/
def manifestText (components : String) : String :=
  "\x7b\"components\": " ++ components ++ "\x7d"

/-- Settled records read back from any form of their text. -/
theorem read_manifestText (layout : Json.Layout) {components : List Component}
    (settled : ∀ component ∈ components, component.Settled) {behind : List Char}
    (blank : ∀ c ∈ behind, Json.isBlank c) :
    (read (manifestText (String.ofList
      (layout.written 0 (recordsToJson components) ++ behind)))).outcome = .ok components := by
  have modest := modest_recordsToJson components
  have document := Json.read_memberObjectText layout "components" modest.legible
    (Nat.lt_of_le_of_lt modest.shallow (by decide)) blank
  have front : "\x7b\"components\": " =
      "\x7b" ++ String.ofList (Json.Quoted.write "components") ++ ": " := by decide
  have text : ∀ records, manifestText records = Json.memberObjectText "components" records :=
    fun records => congrArg (fun front => front ++ records ++ "\x7d") front
  rw [text, read, document]
  exact review_recordsToJson settled

/-- The records of an accepted manifest are read back, one for one and field for field, from
a manifest that has their own JSON as its components: on one line, with a line for each
item, or so with an end of line behind it. -/
theorem read_records {text : String} {components : List Component}
    (accepted : (read text).outcome = .ok components) :
    (read (manifestText (recordsToJson components).compact)).outcome = .ok components ∧
      (read (manifestText (recordsToJson components).pretty)).outcome = .ok components ∧
      (read (manifestText ((recordsToJson components).pretty ++ "\n"))).outcome =
        .ok components := by
  have settled : ∀ component ∈ components, component.Settled := by
    rw [read] at accepted
    cases parsed : Json.read text with
    | error error =>
        rw [parsed] at accepted
        cases accepted
    | ok document =>
        rw [parsed] at accepted
        exact settled_of_describesManifest (review_eq_ok_iff.mp accepted)
  have compact : (recordsToJson components).compact =
      String.ofList (Json.Layout.compact.written 0 (recordsToJson components) ++ []) := by
    rw [List.append_nil, Json.compact, Json.Layout.written_compact]
  have pretty : (recordsToJson components).pretty =
      String.ofList (Json.Layout.pretty.written 0 (recordsToJson components) ++ []) := by
    rw [List.append_nil, Json.pretty, Json.Layout.written_pretty]
  have printed : (recordsToJson components).pretty ++ "\n" =
      String.ofList (Json.Layout.pretty.written 0 (recordsToJson components) ++ ['\n']) := by
    rw [pretty, List.append_nil, String.ofList_append]
  refine ⟨?_, ?_, ?_⟩
  · rw [compact]
    exact read_manifestText Json.Layout.compact settled (List.forall_mem_nil _)
  · rw [pretty]
    exact read_manifestText Json.Layout.pretty settled (List.forall_mem_nil _)
  · rw [printed]
    exact read_manifestText Json.Layout.pretty settled (List.forall_mem_singleton.mpr (by decide))

/-- The members of a component that gives a policy without a pid and a name that is none. -/
def sampleMembers : Fields :=
  [("name", .boolean true), ("implementation-class", .string "sample::Greeter"),
   ("configuration-policy", .string "require"),
   ("references", .array [.object
     [("name", .string "log"), ("interface", .string "sample::ILog"),
      ("cardinality", .string "0..n"), ("policy", .string "dynamic"),
      ("policy-option", .string "greedy"), ("comment", .boolean false)]])]

/-- The record that `sampleMembers` describe. -/
def sampleComponent : Component where
  implementationClass := "sample::Greeter"
  name := none
  injectReferences := true
  configurationPolicy := .ignore
  configurationPid := none
  service := none
  references := [⟨"log", "sample::ILog", .multiple, .dynamic, .greedy, none⟩]

/-- The record is read back without the name, the policy and the comment that its manifest
gives in vain. -/
theorem read_records_sample :
    let text := (Json.object [("components", .array [.object sampleMembers])]).pretty
    let records := recordsToJson [sampleComponent]
    (read text).outcome = .ok [sampleComponent] ∧
      (read (manifestText records.compact)).outcome = .ok [sampleComponent] ∧
      (read (manifestText records.pretty)).outcome = .ok [sampleComponent] ∧
      (read (manifestText (records.pretty ++ "\n"))).outcome = .ok [sampleComponent] := by
  intro text records
  let document := Json.object [("components", .array [.object sampleMembers])]
  have modest : Modest 5 document := by
    refine .object (by decide) (List.forall_mem_singleton.mpr (.array ?_))
    refine List.forall_mem_singleton.mpr (.object (by decide) ?_)
    have reference : Modest 1 (.object
        [("name", .string "log"), ("interface", .string "sample::ILog"),
          ("cardinality", .string "0..n"), ("policy", .string "dynamic"),
          ("policy-option", .string "greedy"), ("comment", .boolean false)]) :=
      .object (by decide) (by simp [Modest.text, Modest.truth])
    have references := Modest.array (List.forall_mem_singleton.mpr reference)
    simp [sampleMembers, Modest.text, Modest.truth, references]
  have parsed : Json.read text = .ok document := by
    have written : text = String.ofList (Json.Layout.pretty.written 0 document) := by
      rw [Json.Layout.written_pretty]
      rfl
    rw [written]
    exact Json.read_written Json.Layout.pretty modest.legible
      (Nat.le_trans modest.shallow (by decide))
  have accepted : (read text).outcome = .ok [sampleComponent] := by
    rw [read, parsed]
    rfl
  exact ⟨accepted, read_records accepted⟩

end ConfTree.Manifest
