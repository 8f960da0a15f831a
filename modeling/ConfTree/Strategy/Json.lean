/-
Module: ConfTree.Strategy.Json
Purpose: Strategies named in JSON text.
Main exports:
  Strategy.read, Strategy.toJson
-/
import ConfTree.Json.Reader
import ConfTree.Json.Writer
import ConfTree.Strategy
import ConfTree.Text.Escaped

namespace ConfTree.Strategy

/-!
A strategy is written as a string with its name.  It is read from such a string, or
from an object whose only member has that name and the value null.
-/

open Json (Reader Cause Fault)

/-- The document of a strategy. -/
def toJson (strategy : Strategy) : Json := .string strategy.name

/-- A value in the wording of a complaint about its type. -/
def foundLabel : Json → String
  | .null => "null"
  | .boolean value => "boolean `" ++ String.ofList (Json.booleanText value) ++ "`"
  | .integer value => "integer `" ++ String.ofList (Json.integerText value) ++ "`"
  | .real value => "floating point `" ++ String.ofList (Json.realText value) ++ "`"
  | .string value => "string " ++ Text.escaped value
  | .array _ => "sequence"
  | .object _ => "map"

/-- The fault of a value that is not of the wanted type.  A scalar is read before it is
complained about; a container is not. -/
def wrongType {α : Type} (wanted : String) : Reader α
  | '[' :: rest =>
      .error ⟨.invalidType (foundLabel (.array [])) wanted, '[' :: rest, 0⟩
  | '\x7b' :: rest =>
      .error ⟨.invalidType (foundLabel (.object [])) wanted, '\x7b' :: rest, 0⟩
  | text =>
      match Json.readScalar text with
      | .ok (found, rest) => .error ⟨.invalidType (foundLabel found) wanted, rest, 0⟩
      | .error fault => .error fault

/-- Read the rest of a string that names a strategy. -/
def readName : Reader Strategy :=
  fun text => do
    let (name, rest) ← Json.Quoted.read text
    match ofName? name with
    | some strategy => return (strategy, rest)
    | none => throw ⟨.unknownVariant name (all.map Strategy.name), rest, 0⟩

/-- Read the name of the only member of an object. -/
def readMemberName : Reader Strategy :=
  fun text =>
    match Json.skipBlanks text with
    | [] => .error ⟨.endInObject, [], 0⟩
    | '"' :: rest => readName rest
    | '\x7d' :: rest => .error ⟨.expectedValue, '\x7d' :: rest, 1⟩
    | rest => .error ⟨.keyNotString, rest, 1⟩

/-- Read a null. -/
def readNull : Reader Unit :=
  fun text =>
    match Json.skipBlanks text with
    | [] => .error ⟨.endInValue, [], 0⟩
    | 'n' :: rest => do
        let rest ← Json.readWord ['u', 'l', 'l'] rest
        return ((), rest)
    | rest => wrongType "unit" rest

/-- Read a strategy. -/
def reader : Reader Strategy :=
  fun text =>
    match Json.skipBlanks text with
    | [] => .error ⟨.endInValue, [], 0⟩
    | '"' :: rest => readName rest
    | '\x7b' :: rest => do
        let (strategy, rest) ← readMemberName rest
        let rest ← Json.readColon rest
        let (_, rest) ← readNull rest
        match Json.skipBlanks rest with
        | [] => throw ⟨.endInObject, [], 0⟩
        | c :: rest =>
            if c = '\x7d' then return (strategy, rest)
            else throw ⟨.expectedValue, c :: rest, 0⟩
    | c :: rest => .error ⟨.expectedValue, c :: rest, 1⟩

/-- The strategy that a JSON text names. -/
def read (text : String) : Except Json.SyntaxError Strategy :=
  Json.readWhole reader text

end ConfTree.Strategy
