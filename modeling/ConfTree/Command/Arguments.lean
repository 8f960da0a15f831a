/-
Module: ConfTree.Command.Arguments
Purpose: Reading the arguments of the command line.
Main exports:
  Request.ofArguments
-/
import ConfTree.Command.Basic

namespace ConfTree

/-!
A command line is a verb with options before and after it.  An option with a value
takes it from the same argument, after `=` or right after its letter, or from the next
one, which must not look like an option then.  Flags of one letter may share an
argument.  After `--` every argument is a plain one.

The arguments are taken from left to right, and the first one that settles the matter
does so: a request for help, for the version, or a mistake.  No option with a value may
be given twice.
-/

namespace Arguments

/-- The verbs of the program. -/
inductive Verb where
  | render
  | get
  | manifest
deriving Repr, DecidableEq

/-- The verb of that exact name. -/
def Verb.ofName? : String → Option Verb
  | "render" => some .render
  | "get" => some .get
  | "manifest" => some .manifest
  | _ => none

/-- The options that take a value. -/
inductive Slot where
  | input
  | output
  | strategy
  | format
deriving Repr, DecidableEq

/-- Whether a verb has an option. -/
def Verb.has : Verb → Slot → Bool
  | .render, _ => true
  | .get, .output => false
  | .get, _ => true
  | .manifest, .input | .manifest, .output => true
  | .manifest, _ => false

/-- The option of a long name. -/
def Slot.ofName? : List Char → Option Slot
  | ['i', 'n', 'p', 'u', 't'] => some .input
  | ['o', 'u', 't', 'p', 'u', 't'] => some .output
  | ['s', 't', 'r', 'a', 't', 'e', 'g', 'y'] => some .strategy
  | ['f', 'o', 'r', 'm', 'a', 't'] => some .format
  | _ => none

/-- The option of a letter. -/
def Slot.ofLetter? : Char → Option Slot
  | 'i' => some .input
  | 'o' => some .output
  | _ => none

/-- What has been given so far. -/
structure Draft where
  /-- How often more detail was asked for. -/
  verbosity : Nat
  path : Option String
  input : Option String
  output : Option String
  strategy : Option Strategy
  format : Option Format

/-- Nothing given yet. -/
def Draft.empty : Draft := ⟨0, none, none, none, none, none⟩

/-- Give an option its value, unless it has one or the value makes no sense. -/
def Draft.give? (draft : Draft) (slot : Slot) (value : String) : Option Draft :=
  match slot with
  | .input => if draft.input.isSome then none else some { draft with input := some value }
  | .output => if draft.output.isSome then none else some { draft with output := some value }
  | .strategy =>
      match draft.strategy, Strategy.ofName? value with
      | none, some strategy => some { draft with strategy := some strategy }
      | _, _ => none
  | .format =>
      match draft.format, Format.ofName? value with
      | none, some format => some { draft with format := some format }
      | _, _ => none

/-- Take a plain argument, which only one verb has a place for. -/
def Draft.place? (verb : Verb) (draft : Draft) (argument : String) : Option Draft :=
  match verb, draft.path with
  | .get, none => some { draft with path := some argument }
  | _, _ => none

/-- Take several plain arguments. -/
def Draft.placeAll? (verb : Verb) (draft : Draft) : List String → Option Draft
  | [] => some draft
  | argument :: rest =>
      match draft.place? verb argument with
      | some draft => draft.placeAll? verb rest
      | none => none

/-- The command that was asked for, if nothing is missing. -/
def Draft.command? (verb : Verb) (draft : Draft) : Option Command :=
  let strategy := draft.strategy.getD .ordered
  let format := draft.format.getD .dump
  match verb with
  | .render => some (.render draft.input draft.output strategy format)
  | .get => draft.path.map fun path => .get path draft.input strategy format
  | .manifest => some (.manifest draft.input draft.output)

/-! ### Single arguments -/

/-- What one argument comes to. -/
inductive Step where
  | taken (draft : Draft)
  /-- The next argument is the value of an option. -/
  | wantsValue (draft : Draft) (slot : Slot)
  | help
  | misuse

/-- The step of giving an option its value. -/
def Draft.giveStep (draft : Draft) (slot : Slot) (value : String) : Step :=
  match draft.give? slot value with
  | some draft => .taken draft
  | none => .misuse

/-- Take a long option, with the value behind its `=` if there is one. -/
def longStep (verb : Verb) (draft : Draft) (name : List Char) (value : Option String) :
    Step :=
  match name, value with
  | ['v', 'e', 'r', 'b', 'o', 's', 'e'], none =>
      .taken { draft with verbosity := draft.verbosity + 1 }
  | ['h', 'e', 'l', 'p'], none => .help
  | name, value =>
      match Slot.ofName? name with
      | none => .misuse
      | some slot =>
          if verb.has slot then
            match value with
            | some value => draft.giveStep slot value
            | none => .wantsValue draft slot
          else .misuse

/-- Take the letters of an argument with short options. -/
def shortStep (verb : Verb) (draft : Draft) : List Char → Step
  | [] => .taken draft
  | 'v' :: rest => shortStep verb { draft with verbosity := draft.verbosity + 1 } rest
  | 'h' :: _ => .help
  | letter :: rest =>
      match Slot.ofLetter? letter with
      | none => .misuse
      | some slot =>
          if verb.has slot then
            match rest with
            | [] => .wantsValue draft slot
            | '=' :: value => draft.giveStep slot (String.ofList value)
            | value => draft.giveStep slot (String.ofList value)
          else .misuse

/-- Take an argument that is not the value of an option. -/
def step (verb : Verb) (draft : Draft) (argument : String) : Step :=
  match argument.toList with
  | '-' :: '-' :: rest =>
      match rest.dropWhile (· != '=') with
      | [] => longStep verb draft rest none
      | _ :: value =>
          longStep verb draft (rest.takeWhile (· != '=')) (some (String.ofList value))
  | '-' :: letter :: rest => shortStep verb draft (letter :: rest)
  | _ =>
      match draft.place? verb argument with
      | some draft => .taken draft
      | none => .misuse

/-- Whether an argument looks like an option. -/
def looksLikeOption (argument : String) : Bool :=
  match argument.toList with
  | '-' :: _ :: _ => true
  | _ => false

/-! ### All arguments -/

/-- The request of a draft whose arguments are all taken.  How much detail is told of is
settled after the verb, if anything is said about it there. -/
def finish (verb : Verb) (verbosity : Nat) (draft : Draft) : Request :=
  match draft.command? verb with
  | some command =>
      .work (if draft.verbosity = 0 then verbosity else draft.verbosity) command
  | none => .misuse

/-- Take the arguments after the verb. -/
def afterVerb (verb : Verb) (verbosity : Nat) (draft : Draft) : List String → Request
  | [] => finish verb verbosity draft
  | argument :: rest =>
      if argument = "--" then
        match draft.placeAll? verb rest with
        | some draft => finish verb verbosity draft
        | none => .misuse
      else
        match step verb draft argument with
        | .taken draft => afterVerb verb verbosity draft rest
        | .help => .help
        | .misuse => .misuse
        | .wantsValue draft slot =>
            match rest with
            | [] => .misuse
            | value :: rest =>
                if looksLikeOption value then .misuse
                else
                  match draft.give? slot value with
                  | some draft => afterVerb verb verbosity draft rest
                  | none => .misuse

/-- Take the letters of an argument in front of the verb: either they ask for more
detail so many times, or they settle the request. -/
def lettersBeforeVerb (verbosity : Nat) : List Char → Request ⊕ Nat
  | [] => .inr verbosity
  | 'v' :: rest => lettersBeforeVerb (verbosity + 1) rest
  | 'V' :: _ => .inl .version
  | 'h' :: _ => .inl .help
  | _ => .inl .misuse

/-- The request for help on topics.  There is help on the whole program, on each verb and
on asking for help; no topic has topics of its own. -/
def helpOn : List String → Request
  | [] => .help
  | [topic] => if topic = "help" ∨ (Verb.ofName? topic).isSome then .help else .misuse
  | _ => .misuse

/-- Take the arguments from the first one on. -/
def beforeVerb (verbosity : Nat) : List String → Request
  | [] => .misuse
  | "--verbose" :: rest => beforeVerb (verbosity + 1) rest
  | "--version" :: _ => .version
  | "--help" :: _ => .help
  | "help" :: topics => helpOn topics
  | argument :: rest =>
      match argument.toList with
      | '-' :: letter :: letters =>
          match lettersBeforeVerb verbosity (letter :: letters) with
          | .inl request => request
          | .inr verbosity => beforeVerb verbosity rest
      | _ =>
          match Verb.ofName? argument with
          | some verb => afterVerb verb verbosity .empty rest
          | none => .misuse

end Arguments

/-- The request that the arguments of a command line make. -/
def Request.ofArguments (arguments : List String) : Request :=
  Arguments.beforeVerb 0 arguments

end ConfTree
