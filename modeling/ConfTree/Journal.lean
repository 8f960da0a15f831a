/-
Module: ConfTree.Journal
Purpose: What is worth telling about work on configuration documents.
Main exports:
  Event, Event.level, Event.message, Event.fields, Event.line, Failure.events
-/
import ConfTree.Failure
import ConfTree.Text.Escaped

namespace ConfTree

/-!
Some operations have something to tell besides their result.  It is told as a list of
events in the order in which they happen; who reads them decides by their level which
of them are shown.
-/

/-- How important an event is. -/
inductive Level where
  | debug
  | info
  | warn
deriving Repr, DecidableEq

/-- The name of a level. -/
def Level.name : Level → String
  | debug => "DEBUG"
  | info => "INFO"
  | warn => "WARN"

/-- The level as a number that grows with importance. -/
def Level.rank : Level → Nat
  | debug => 0
  | info => 1
  | warn => 2

/-- Something worth telling. -/
inductive Event where
  /-- A path goes on at a scalar of that kind. -/
  | pathEntersScalar (segment : String) (kind : Kind)
  /-- A component gives only one of configuration policy and configuration pid. -/
  | configurationIgnored (component : String)
  | documentLoaded (strategy : Strategy) (kind : Kind)
  | pathResolved (path : String) (kind : Kind)
  | manifestValidated (count : Nat)
deriving Repr, DecidableEq

namespace Event

/-- The level of an event. -/
def level : Event → Level
  | pathEntersScalar _ _ | pathResolved _ _ => .debug
  | documentLoaded _ _ | manifestValidated _ => .info
  | configurationIgnored _ => .warn

/-- The part of the program that tells of an event. -/
def origin : Event → String
  | pathEntersScalar _ _ => "anyconf_core::path"
  | configurationIgnored _ => "anyconf_core::manifest"
  | documentLoaded _ _ | pathResolved _ _ | manifestValidated _ => "anyconf"

/-- The wording of an event. -/
def message : Event → String
  | pathEntersScalar _ _ => "path enters a scalar"
  | configurationIgnored _ =>
      "configuration-policy has been set to ignore; both configuration-policy and " ++
        "configuration-pid must be present to participate in configuration"
  | documentLoaded _ _ => "loaded document"
  | pathResolved _ _ => "resolved path"
  | manifestValidated _ => "validated manifest"

/-- The details of an event by name. -/
def fields : Event → List (String × String)
  | pathEntersScalar segment kind => [("segment", segment), ("kind", kind.name)]
  | configurationIgnored component => [("component", component)]
  | documentLoaded strategy kind => [("strategy", strategy.name), ("kind", kind.name)]
  | pathResolved path kind => [("path", path), ("kind", kind.name)]
  | manifestValidated count => [("count", toString count)]

/-- A detail as it is shown in a line; a segment stands between quotes. -/
def shownField (field : String × String) : String :=
  " " ++ field.1 ++ "=" ++
    (if field.1 == "segment" then Text.escaped field.2 else field.2)

/-- An event as one line. -/
def line (event : Event) : String :=
  event.level.name ++ " " ++ event.origin ++ ": " ++ event.message ++
    String.join (event.fields.map shownField)

end Event

/-- What a failed look-up along a path tells. -/
def Failure.events : Failure → List Event
  | segmentInScalar segment kind => [.pathEntersScalar segment kind]
  | _ => []

/-- What a look-up along a path tells. -/
def lookupEvents {α : Type} : Except Failure α → List Event
  | .ok _ => []
  | .error failure => failure.events

end ConfTree
