/-
Module: ConfTree.Json.Reader
Purpose: Reading JSON text into trees.
Main exports:
  Json.Reader, Json.Brackets, Json.readItems, Json.readValue, Json.read
-/
import ConfTree.Json.Literal
import ConfTree.Json.Quoted

namespace ConfTree.Json

/-!
A reader takes the text that is left and answers what it read together with what
is left then.  Arrays and objects share one loop, `readItems`; they differ in
their closing bracket, in what they complain about, and in how one item is read.
At most `nestingLimit` containers may be open at once.
-/

/-- A step of reading: a result and the text after it, or a fault. -/
abbrev Reader (α : Type) := List Char → Except Fault (α × List Char)

/-- How many containers may be open at once. -/
def nestingLimit : Nat := 127

/-- The blanks that may stand between the parts of a document. -/
def isBlank (c : Char) : Bool := c = ' ' || c = '\n' || c = '\t' || c = '\r'

/-- The text without the blanks at its front. -/
def skipBlanks (text : List Char) : List Char := text.dropWhile isBlank

/-- Read the remaining letters of a fixed word. -/
def readWord : List Char → List Char → Except Fault (List Char)
  | [], text => .ok text
  | _ :: _, [] => .error ⟨.endInValue, [], 0⟩
  | letter :: letters, c :: rest =>
      if c = letter then readWord letters rest
      else .error ⟨.expectedWord, c :: rest, 1⟩

/-- Read a value that is neither an array nor an object. -/
def readScalar : Reader Json
  | [] => .error ⟨.endInValue, [], 0⟩
  | '"' :: rest => do
      let (text, rest) ← Quoted.read rest
      return (.string text, rest)
  | 'n' :: rest => do
      let rest ← readWord ['u', 'l', 'l'] rest
      return (.null, rest)
  | 't' :: rest => do
      let rest ← readWord ['r', 'u', 'e'] rest
      return (.boolean true, rest)
  | 'f' :: rest => do
      let rest ← readWord ['a', 'l', 's', 'e'] rest
      return (.boolean false, rest)
  | c :: rest =>
      if c = '-' ∨ c.isDigit then Literal.read (c :: rest)
      else .error ⟨.expectedValue, c :: rest, 1⟩

/-! ### Containers -/

/-- The closing bracket of a kind of container and the faults of its loop. -/
structure Brackets where
  close : Char
  endInside : Cause
  expectedComma : Cause

/-- The brackets of arrays. -/
def squareBrackets : Brackets := ⟨']', .endInArray, .expectedCommaOrBracket⟩

/-- The brackets of objects. -/
def curlyBrackets : Brackets := ⟨'\x7d', .endInObject, .expectedCommaOrBrace⟩

/-- Read the items after the first one, each after a comma.  The text holds a comma
for each of them, so its length bounds their number. -/
def readMoreItems {α : Type} (brackets : Brackets) (item : Reader α) :
    Nat → Reader (List α)
  | bound, text =>
      match skipBlanks text with
      | [] => .error ⟨brackets.endInside, [], 0⟩
      | c :: rest =>
          if c = brackets.close then .ok ([], rest)
          else if c = ',' then
            match skipBlanks rest with
            | [] => .error ⟨.endInValue, [], 0⟩
            | next :: after =>
                if next = brackets.close then .error ⟨.trailingComma, next :: after, 1⟩
                else
                  match bound with
                  | 0 => .error ⟨brackets.endInside, [], 0⟩
                  | bound + 1 => do
                      let (first, rest) ← item (next :: after)
                      let (more, rest) ← readMoreItems brackets item bound rest
                      return (first :: more, rest)
          else .error ⟨brackets.expectedComma, c :: rest, 1⟩

/-- Read the items of a container whose opening bracket has been read. -/
def readItems {α : Type} (brackets : Brackets) (item : Reader α) : Reader (List α) :=
  fun text =>
    match skipBlanks text with
    | [] => .error ⟨brackets.endInside, [], 0⟩
    | c :: rest =>
        if c = brackets.close then .ok ([], rest)
        else do
          let (first, rest) ← item (c :: rest)
          let (more, rest) ← readMoreItems brackets item rest.length rest
          return (first :: more, rest)

/-- Read a colon, after blanks. -/
def readColon (text : List Char) : Except Fault (List Char) :=
  match skipBlanks text with
  | [] => .error ⟨.endInObject, [], 0⟩
  | c :: rest => if c = ':' then .ok rest else .error ⟨.expectedColon, c :: rest, 1⟩

/-- Read a member of an object: its name, a colon and its value. -/
def readMember {α : Type} (value : Reader α) : Reader (String × α)
  | '"' :: rest => do
      let (name, rest) ← Quoted.read rest
      let rest ← readColon rest
      let (value, rest) ← value rest
      return ((name, value), rest)
  | rest => .error ⟨.keyNotString, rest, 1⟩

/-- Read a value inside which that many containers may still be opened. -/
def readValue : Nat → Reader Json
  | depth, text =>
      match skipBlanks text with
      | '[' :: rest =>
          match depth with
          | 0 => .error ⟨.tooDeep, '[' :: rest, 1⟩
          | depth + 1 => do
              let (items, rest) ← readItems squareBrackets (readValue depth) rest
              return (.array items, rest)
      | '\x7b' :: rest =>
          match depth with
          | 0 => .error ⟨.tooDeep, '\x7b' :: rest, 1⟩
          | depth + 1 => do
              let (members, rest) ←
                readItems curlyBrackets (readMember (readValue depth)) rest
              return (.object (ofMembers members), rest)
      | rest => readScalar rest

/-! ### Whole texts -/

/-- Read something that takes up the whole text but for blanks after it. -/
def readWhole {α : Type} (reader : Reader α) (text : String) : Except SyntaxError α :=
  match reader text.toList with
  | .error fault => .error (fault.locate text.toList)
  | .ok (result, rest) =>
      match skipBlanks rest with
      | [] => .ok result
      | c :: rest => .error (Fault.locate ⟨.trailingCharacters, c :: rest, 1⟩ text.toList)

/-- Read a document. -/
def read (text : String) : Except SyntaxError Json :=
  readWhole (readValue nestingLimit) text

end ConfTree.Json
