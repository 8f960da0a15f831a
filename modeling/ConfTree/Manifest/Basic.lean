/-
Module: ConfTree.Manifest.Basic
Purpose: Component manifests: their records and what can be wrong with them.
Main exports:
  Manifest.Choice, Manifest.Component, Manifest.Service, Manifest.Reference,
  Manifest.Defect, Manifest.Defect.message
-/
import ConfTree.Json.Basic
import ConfTree.Json.Fault

namespace ConfTree.Manifest

/-!
A manifest describes the components of a system: the class that implements each,
how it is configured, the service that it offers and the services that it refers to.
Several fields take one of a few words; such a closed list of words is a `Choice`.
-/

/-! ### Choices -/

/-- A type whose values are read from a closed list of words. -/
class Choice (α : Type) where
  /-- The words in the order in which they are listed, each with what it stands for. -/
  listed : List (String × α)

/-- The words of a choice in order. -/
def Choice.words (α : Type) [Choice α] : List String := (listed (α := α)).map (·.1)

/-- What a word stands for. -/
def Choice.ofWord? {α : Type} [Choice α] (word : String) : Option α :=
  (listed.find? fun entry => entry.1 == word).map (·.2)

/-- Whether a component takes part in configuration. -/
inductive ConfigurationPolicy where
  | ignore
  | optional
  | require
deriving Repr, DecidableEq

instance : Choice ConfigurationPolicy where
  listed := [("ignore", .ignore), ("optional", .optional), ("require", .require)]

/-- How many instances of a service there are. -/
inductive Scope where
  | singleton
  | bundle
  | prototype
deriving Repr, DecidableEq

instance : Choice Scope where
  listed := [("singleton", .singleton), ("bundle", .bundle), ("prototype", .prototype)]

/-- How many services a reference wants and takes. -/
inductive Cardinality where
  | optional
  | mandatory
  | multiple
  | atLeastOne
deriving Repr, DecidableEq

instance : Choice Cardinality where
  listed := [("0..1", .optional), ("1..1", .mandatory), ("0..n", .multiple), ("1..n", .atLeastOne)]

/-- Whether the service behind a reference may change. -/
inductive ReferencePolicy where
  | static
  | dynamic
deriving Repr, DecidableEq

instance : Choice ReferencePolicy where
  listed := [("static", .static), ("dynamic", .dynamic)]

/-- Whether a reference moves on to a better service. -/
inductive PolicyOption where
  | reluctant
  | greedy
deriving Repr, DecidableEq

instance : Choice PolicyOption where
  listed := [("reluctant", .reluctant), ("greedy", .greedy)]

/-! ### Records -/

/-- The service that a component offers. -/
structure Service where
  scope : Scope
  interfaces : List String
deriving Repr, DecidableEq

/-- A service that a component refers to. -/
structure Reference where
  name : String
  interface : String
  cardinality : Cardinality
  policy : ReferencePolicy
  policyOption : PolicyOption
  target : Option String
deriving Repr, DecidableEq

/-- A component of a manifest. -/
structure Component where
  implementationClass : String
  name : Option String
  injectReferences : Bool
  configurationPolicy : ConfigurationPolicy
  configurationPid : Option String
  service : Option Service
  references : List Reference
deriving Repr, DecidableEq

/-! ### Defects -/

/-- What makes a manifest unacceptable. -/
inductive Defect where
  | malformedJson (error : Json.SyntaxError)
  | missingField (field : String)
  /-- A field is there and is not what it must be. -/
  | wrongType (field expected : String)
  /-- A field holds a name outside its closed list. -/
  | invalidChoice (field value : String) (choices : List String)
  /-- An interface is not a name, or an empty one. -/
  | emptyInterface
  /-- Names that several references of a component share. -/
  | duplicateReferences (names : List String)
deriving Repr, DecidableEq

/-- The wording of a defect. -/
def Defect.message : Defect → String
  | malformedJson error => "manifest is not valid JSON: " ++ error.message
  | missingField field => "missing required field '" ++ field ++ "'"
  | wrongType field expected => "field '" ++ field ++ "' must be " ++ expected
  | invalidChoice field value choices =>
      "invalid value '" ++ value ++ "' for field '" ++ field ++
        "' (expected one of: " ++ String.intercalate ", " choices ++ ")"
  | emptyInterface =>
      "invalid array value for 'interfaces': expected non-empty string"
  | duplicateReferences names =>
      "duplicate service reference names found, reference names must be unique: " ++
        String.intercalate " " names

end ConfTree.Manifest
