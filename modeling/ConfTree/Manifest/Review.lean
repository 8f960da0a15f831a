/-
Module: ConfTree.Manifest.Review
Purpose: Checking a manifest and taking its records out of it.
Main exports:
  Manifest.Review, Manifest.countName, Manifest.readReferences,
  Manifest.reviewComponent, Manifest.reviewComponents, Manifest.review,
  Manifest.read
-/
import ConfTree.Json.Reader
import ConfTree.Manifest.Basic
import ConfTree.Table.Basic

namespace ConfTree.Manifest

/-!
A manifest is accepted as a whole or not at all: the first defect, in the order of
the checks below, is the only one reported.  The names that references share are
looked for last, when every reference of the component is well formed, and are then
reported together.

A component that gives only one of configuration policy and configuration pid is
accepted without configuration and causes a warning.  The warning is due as soon as
those two fields are known to be well formed, whatever the later checks say.
-/

/-- The members of a JSON object. -/
abbrev Fields := List (String × Json)

/-- What reviewing a part of a manifest comes to. -/
structure Review (α : Type) where
  /-- The implementation classes of the components warned about, in order. -/
  warnings : List String
  /-- The records, or the first defect. -/
  outcome : Except Defect α

/-! ### Fields -/

/-- A field that must be there. -/
def required (fields : Fields) (field : String) : Except Defect Json :=
  match Json.member? fields field with
  | some value => .ok value
  | none => .error (.missingField field)

/-- The content of a string. -/
def text (field : String) : Json → Except Defect String
  | .string content => .ok content
  | _ => .error (.wrongType field "a string")

/-- A truth value. -/
def truth (field : String) : Json → Except Defect Bool
  | .boolean value => .ok value
  | _ => .error (.wrongType field "a boolean")

/-- The items of an array. -/
def array (field : String) : Json → Except Defect (List Json)
  | .array items => .ok items
  | _ => .error (.wrongType field "an array")

/-- The members of an object. -/
def object (field expected : String) : Json → Except Defect Fields
  | .object members => .ok members
  | _ => .error (.wrongType field expected)

/-- A string that must be there. -/
def requiredText (fields : Fields) (field : String) : Except Defect String := do
  text field (← required fields field)

/-- An array that must be there. -/
def requiredArray (fields : Fields) (field : String) : Except Defect (List Json) := do
  array field (← required fields field)

/-- What is read of a field that may be left out. -/
def optional {α : Type} (fields : Fields) (field : String) (read : Json → Except Defect α) :
    Except Defect (Option α) :=
  match Json.member? fields field with
  | none => .ok none
  | some value => some <$> read value

/-- A string that may be left out. -/
def optionalText (fields : Fields) (field : String) : Except Defect (Option String) :=
  optional fields field (text field)

/-- The value of a word from a closed list. -/
def choose {α : Type} [Choice α] (field value : String) : Except Defect α :=
  match Choice.ofWord? value with
  | some option => .ok option
  | none => .error (.invalidChoice field value (Choice.words α))

/-- A word from a closed list that must be there. -/
def requiredChoice {α : Type} [Choice α] (fields : Fields) (field : String) :
    Except Defect α := do
  choose field (← requiredText fields field)

/-! ### Services and references -/

/-- The name of an interface. -/
def readInterface : Json → Except Defect String
  | .string name => if name.isEmpty then .error .emptyInterface else .ok name
  | _ => .error .emptyInterface

/-- The service that an object describes. -/
def readService (fields : Fields) : Except Defect Service := do
  let scope ← requiredChoice fields "scope"
  let interfaces ← requiredArray fields "interfaces"
  if interfaces.isEmpty then
    throw (.wrongType "interfaces" "a non-empty array")
  let interfaces ← interfaces.mapM readInterface
  return { scope, interfaces }

/-- Count a name once more. -/
def countName (seen : Table Nat) (name : String) : Table Nat :=
  (seen.getOrInsert name 0).2.modify name (· + 1)

/-- The names that were counted more than once, in the order of the table. -/
def repeated (seen : Table Nat) : List String :=
  (seen.entries.filter fun entry => 1 < entry.2).map (·.1)

/-- How far the references of a component have been read. -/
structure Progress where
  /-- How often each name has come up, by ascending name. -/
  seen : Table Nat
  references : List Reference

/-- Nothing has been read. -/
def Progress.start : Progress := ⟨.empty .ordered, []⟩

/-- Read the reference that an item describes.  Its name is counted before its other fields
are looked at. -/
def readReference (progress : Progress) (item : Json) : Except Defect Progress := do
  let fields ← object "references" "an array of objects" item
  let name ← requiredText fields "name"
  let seen := countName progress.seen name
  let interface ← requiredText fields "interface"
  let cardinality ← requiredChoice fields "cardinality"
  let policy ← requiredChoice fields "policy"
  let policyOption ← requiredChoice fields "policy-option"
  let target ← optionalText fields "target"
  let reference : Reference := { name, interface, cardinality, policy, policyOption, target }
  return { seen := seen, references := progress.references ++ [reference] }

/-- The references that an array describes.  Names that were given more than once are reported
when all references have been read. -/
def readReferences (items : List Json) : Except Defect (List Reference) := do
  let progress ← items.foldlM readReference .start
  match repeated progress.seen with
  | [] => return progress.references
  | names => throw (.duplicateReferences names)

/-! ### Components -/

/-- The fields of a component that are checked before its warning is due. -/
structure Header where
  implementationClass : String
  name : Option String
  injectReferences : Bool
  policy : Option ConfigurationPolicy
  pid : Option String

/-- The name of a component.  One that is not a string counts as none. -/
def readName (fields : Fields) : Option String :=
  match Json.member? fields "name" with
  | some (.string content) => some content
  | _ => none

/-- The configuration policy that a string names. -/
def readPolicy (value : Json) : Except Defect ConfigurationPolicy := do
  choose "configuration-policy" (← text "configuration-policy" value)

/-- The first fields of a component.  References are injected unless it says otherwise. -/
def readHeader (fields : Fields) : Except Defect Header := do
  let implementationClass ← requiredText fields "implementation-class"
  let injectReferences ← optional fields "inject-references" (truth "inject-references")
  let policy ← optional fields "configuration-policy" readPolicy
  let pid ← optionalText fields "configuration-pid"
  return {
    implementationClass := implementationClass
    name := readName fields
    injectReferences := injectReferences.getD true
    policy := policy
    pid := pid }

/-- Whether exactly one of policy and pid is given. -/
def Header.isHalfConfigured (header : Header) : Bool :=
  header.policy.isSome != header.pid.isSome

/-- The policy that is in force: configuration needs both policy and pid. -/
def Header.effectivePolicy (header : Header) : ConfigurationPolicy :=
  match header.policy, header.pid with
  | some policy, some _ => policy
  | _, _ => .ignore

/-- The component of a header that has that service and those references. -/
def Header.component (header : Header) (service : Option Service)
    (references : List Reference) : Component where
  implementationClass := header.implementationClass
  name := header.name
  injectReferences := header.injectReferences
  configurationPolicy := header.effectivePolicy
  configurationPid := header.pid
  service := service
  references := references

/-- The remaining fields of a component.  Without references it refers to nothing. -/
def readBody (fields : Fields) (header : Header) : Except Defect Component := do
  let service ← optional fields "service" fun value =>
    object "service" "an object" value >>= readService
  let references ← optional fields "references" fun value =>
    array "references" value >>= readReferences
  return header.component service (references.getD [])

/-- The header of the component that an item describes, with its other fields. -/
def readItem (item : Json) : Except Defect (Fields × Header) := do
  let fields ← object "components" "an array of objects" item
  return (fields, ← readHeader fields)

/-- Review the component that an item describes. -/
def reviewComponent (item : Json) : Review Component :=
  match readItem item with
  | .error defect => ⟨[], .error defect⟩
  | .ok (fields, header) =>
      ⟨if header.isHalfConfigured then [header.implementationClass] else [],
        readBody fields header⟩

/-- Review components one after the other, up to the first defect. -/
def reviewComponents : List Json → Review (List Component)
  | [] => ⟨[], .ok []⟩
  | item :: rest =>
      let first := reviewComponent item
      match first.outcome with
      | .error defect => ⟨first.warnings, .error defect⟩
      | .ok component =>
          let others := reviewComponents rest
          ⟨first.warnings ++ others.warnings, others.outcome.map (component :: ·)⟩

/-- The array of components of a document. -/
def componentItems (document : Json) : Except Defect (List Json) := do
  requiredArray (← object "<root>" "an object" document) "components"

/-- Review a document. -/
def review (document : Json) : Review (List Component) :=
  match componentItems document with
  | .error defect => ⟨[], .error defect⟩
  | .ok items => reviewComponents items

/-- Review the document of a JSON text. -/
def read (content : String) : Review (List Component) :=
  match Json.read content with
  | .error error => ⟨[], .error (.malformedJson error)⟩
  | .ok document => review document

end ConfTree.Manifest
