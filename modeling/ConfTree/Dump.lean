/-
Module: ConfTree.Dump
Purpose: The indented listing of values for people to read.
Main exports:
  Dump.lines, Value.dump, Table.dump
-/
import ConfTree.Binary64.Text
import ConfTree.Json.Writer
import ConfTree.Value.Basic

namespace ConfTree

/-!
The listing of a value is a list of lines, each indented by its depth:

* a scalar is one line with its bare text, neither quoted nor escaped;
* a table opens and closes with a brace, and each entry is a line with the key and
  a colon, followed by the lines of the value two columns further in;
* a sequence opens and closes with a bracket, and each item is followed by a line
  with a comma two columns further in, the last item too;
* a box shows as two columns more in front of what is in it.

A text with ends of line in it is still a single line here; it shows as several.
-/

namespace Dump

/-- Real numbers are written positionally whatever their size, whole ones without a
point; of two shortest decimals that are equally near the greater one is taken. -/
def numberStyle : NumberStyle := ⟨.upward, none, []⟩

/-- The text of a real number, also of one that is not finite. -/
def realText (x : Binary64) : List Char :=
  if x.isNaN then ['N', 'a', 'N']
  else if x.isInfinite then
    if x.isNegative then ['-', 'i', 'n', 'f'] else ['i', 'n', 'f']
  else x.text numberStyle

/-- A line that is indented by so much. -/
def line (indent : Nat) (content : List Char) : List Char :=
  List.replicate indent ' ' ++ content

mutual

/-- The lines of a value that is indented by so much. -/
def lines (indent : Nat) : Value → List (List Char)
  | .text content => [line indent content.toList]
  | .real number => [line indent (realText number)]
  | .integer number => [line indent (Json.integerText number.toInt)]
  | .boolean truth => [line indent (Json.booleanText truth)]
  | .boxed inner => lines (indent + 2) inner
  | .sequence items =>
      line indent ['['] :: itemLines indent items ++ [line indent [']']]
  | .map ⟨_, slots⟩ =>
      line indent ['\x7b'] :: slotLines indent slots ++ [line indent ['\x7d']]

/-- The lines between the brackets of a sequence that is indented by so much. -/
def itemLines (indent : Nat) : List Value → List (List Char)
  | [] => []
  | item :: rest =>
      lines (indent + 2) item ++ line (indent + 2) [','] :: itemLines indent rest

/-- The lines between the braces of a table that is indented by so much. -/
def slotLines (indent : Nat) : List (Slot Value) → List (List Char)
  | [] => []
  | ⟨_, key, value⟩ :: rest =>
      line indent (key.toList ++ [':', ' ']) :: lines (indent + 2) value ++
        slotLines indent rest

end

/-- Lines as one text, each with an end of line. -/
def unlines (lines : List (List Char)) : String :=
  String.ofList (lines.flatMap fun line => line ++ ['\n'])

end Dump

/-- The listing of a value. -/
def Value.dump (value : Value) : String := Dump.unlines (Dump.lines 0 value)

/-- The listing of a table. -/
def Table.dump (table : Table Value) : String := (Value.map table).dump

end ConfTree
