/-
Module: ConfTree.Manifest.Json
Purpose: The records of a manifest as JSON.
Main exports:
  Manifest.Named, Manifest.Component.toJson, Manifest.recordsToJson
-/
import ConfTree.Manifest.Basic

namespace ConfTree.Manifest

/-!
Records are written with the field names of a manifest, in a fixed order; a field
without a value is left out.
-/

/-! ### Names -/

/-- A type whose values are written as names. -/
class Named (α : Type) where
  /-- The name of a value. -/
  name : α → String

instance : Named ConfigurationPolicy where
  name
    | .ignore => "ignore"
    | .optional => "optional"
    | .require => "require"

instance : Named Scope where
  name
    | .singleton => "singleton"
    | .bundle => "bundle"
    | .prototype => "prototype"

instance : Named Cardinality where
  name
    | .optional => "0..1"
    | .mandatory => "1..1"
    | .multiple => "0..n"
    | .atLeastOne => "1..n"

instance : Named ReferencePolicy where
  name
    | .static => "static"
    | .dynamic => "dynamic"

instance : Named PolicyOption where
  name
    | .reluctant => "reluctant"
    | .greedy => "greedy"

/-! ### Documents -/

/-- A member for something that may be missing. -/
def optionalMember {α : Type} (name : String) (encode : α → Json) :
    Option α → List (String × Json)
  | none => []
  | some content => [(name, encode content)]

/-- The document of a service. -/
def Service.toJson (service : Service) : Json :=
  .object [
    ("scope", .string (Named.name service.scope)),
    ("interfaces", .array (service.interfaces.map .string))]

/-- The members of a reference. -/
def Reference.members (reference : Reference) : List (String × Json) :=
  [("name", .string reference.name),
   ("interface", .string reference.interface),
   ("cardinality", .string (Named.name reference.cardinality)),
   ("policy", .string (Named.name reference.policy)),
   ("policy-option", .string (Named.name reference.policyOption))] ++
  optionalMember "target" .string reference.target

/-- The document of a reference. -/
def Reference.toJson (reference : Reference) : Json := .object reference.members

/-- The members of a component. -/
def Component.members (component : Component) : List (String × Json) :=
  [("implementation-class", .string component.implementationClass)] ++
  optionalMember "name" .string component.name ++
  [("inject-references", .boolean component.injectReferences),
   ("configuration-policy", .string (Named.name component.configurationPolicy))] ++
  optionalMember "configuration-pid" .string component.configurationPid ++
  optionalMember "service" Service.toJson component.service ++
  [("references", .array (component.references.map Reference.toJson))]

/-- The document of a component. -/
def Component.toJson (component : Component) : Json := .object component.members

/-- The document of several components. -/
def recordsToJson (components : List Component) : Json :=
  .array (components.map Component.toJson)

end ConfTree.Manifest
