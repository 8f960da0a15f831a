/-
Module: ConfTree.Proofs.Dump.Indentation
Purpose: A listing further in is the listing itself behind so many blanks on each line.
Main exports:
  Dump.textLines, Dump.shifted, Value.Unbroken, Dump.textLines_unlines, Dump.lines_shift,
  Value.dump_shifts_uniformly
-/
import ConfTree.Dump
import ConfTree.Proofs.Json.Literal
import ConfTree.Proofs.Value.Shape
import Mathlib.Algebra.Ring.Nat

namespace ConfTree

/-!
The depth of a value is handed down through its listing: a table indents its keys and its
braces, a sequence its brackets and its commas, each for itself.  That these depths fit together
is to say that nothing in a listing depends on the depth but the blanks in front of each line, and
so a listing can be moved as a whole.

What is said here of a text is said of its lines as they are found in it, between one end of line
and the next.  They are the lines that were written as long as no text and no key in the value has
an end of line itself.
-/

namespace Dump

/-- The lines that a text falls into at its ends of line, if it ends with one. -/
def textLines (text : String) : List (List Char) := (text.toList.splitOn '\n').dropLast

/-- The text with so many blanks in front of each of its lines. -/
def shifted (columns : Nat) (text : String) : String :=
  String.ofList
    ((textLines text).flatMap fun line => List.replicate columns ' ' ++ line ++ ['\n'])

example : shifted 2 "[\n  true\n  ,\n]\n" = "  [\n    true\n    ,\n  ]\n" := by decide

end Dump

/-- No text and no key in the value has an end of line in it. -/
def Value.Unbroken (value : Value) : Prop :=
  value.Everywhere fun part =>
    (∀ content, part = .text content → '\n' ∉ content.toList) ∧
      ∀ table, part = .map table → ∀ slot ∈ table.slots, '\n' ∉ slot.key.toList

namespace Dump

/-! ### Lines and text -/

theorem toList_unlines (lines : List (List Char)) :
    (unlines lines).toList = lines.flatMap fun line => line ++ ['\n'] := by
  simp [unlines]

theorem splitOn_flatMap_line {lines : List (List Char)} (each : ∀ line ∈ lines, '\n' ∉ line) :
    (lines.flatMap fun line => line ++ ['\n']).splitOn '\n' = lines ++ [[]] := by
  induction lines with
  | nil => simp
  | cons line others ih =>
      obtain ⟨first, following⟩ := List.forall_mem_cons.mp each
      simp only [List.flatMap_cons, List.append_assoc, List.cons_append, List.nil_append]
      simp only [List.splitOn_append_cons_self_of_not_mem first, ih following]

/-- Lines that are joined to a text are found in it again. -/
theorem textLines_unlines {lines : List (List Char)} (each : ∀ line ∈ lines, '\n' ∉ line) :
    textLines (unlines lines) = lines := by
  simp only [textLines, toList_unlines, splitOn_flatMap_line each, List.dropLast_concat]

/-- To put blanks in front of the lines of a text is to put them in front of those that it was made
from. -/
theorem shifted_unlines {lines : List (List Char)} (each : ∀ line ∈ lines, '\n' ∉ line)
    (columns : Nat) : shifted columns (unlines lines) = unlines (lines.map (line columns)) := by
  rw [shifted, textLines_unlines each, unlines, List.flatMap_map]
  rfl

/-- A text of one line or more ends with an end of line. -/
theorem exists_unlines_eq_append {lines : List (List Char)} (notNil : lines ≠ []) :
    ∃ front, unlines lines = front ++ "\n" := by
  obtain ⟨others, last, rfl⟩ := (List.eq_nil_or_concat lines).resolve_left notNil
  refine ⟨String.ofList ((others.flatMap fun line => line ++ ['\n']) ++ last), ?_⟩
  apply String.toList_injective
  simp [toList_unlines]

/-! ### The shape of a listing -/

theorem line_line (columns indent : Nat) (content : List Char) :
    line columns (line indent content) = line (columns + indent) content := by
  simp only [line, ← List.append_assoc, List.replicate_append_replicate]

theorem itemLines_eq (indent : Nat) (items : List Value) :
    itemLines indent items =
      items.flatMap fun item => lines (indent + 2) item ++ [line (indent + 2) [',']] := by
  induction items with
  | nil => simp [itemLines]
  | cons item rest ih => simp [itemLines, ih]

theorem slotLines_eq (indent : Nat) (slots : List (Slot Value)) :
    slotLines indent slots =
      slots.flatMap fun slot =>
        line indent (slot.key.toList ++ [':', ' ']) :: lines (indent + 2) slot.value := by
  induction slots with
  | nil => simp [slotLines]
  | cons slot rest ih => simp [slotLines, ih]

theorem lines_sequence (indent : Nat) (items : List Value) :
    lines indent (.sequence items) =
      line indent ['['] :: itemLines indent items ++ [line indent [']']] := by
  rw [lines]

theorem lines_map (indent : Nat) (table : Table Value) :
    lines indent (.map table) =
      line indent ['\x7b'] :: slotLines indent table.slots ++ [line indent ['\x7d']] := by
  cases table
  rw [lines]

/-- A scalar takes up one line, whatever its kind. -/
theorem exists_lines_of_scalar {value : Value} (scalar : value.isScalar) :
    ∃ content, ∀ indent, lines indent value = [line indent content] := by
  cases value with
  | text content => exact ⟨content.toList, fun indent => by rw [lines]⟩
  | real number => exact ⟨realText number, fun indent => by rw [lines]⟩
  | integer number => exact ⟨Json.integerText number.toInt, fun indent => by rw [lines]⟩
  | boolean truth => exact ⟨Json.booleanText truth, fun indent => by rw [lines]⟩
  | boxed => cases scalar
  | sequence => cases scalar
  | map => cases scalar

theorem lines_ne_nil (indent : Nat) (value : Value) : lines indent value ≠ [] := by
  induction value generalizing indent with
  | boxed inner ih =>
      rw [lines]
      exact ih (indent + 2)
  | sequence items => simp [lines_sequence]
  | map table => simp [lines_map]
  | _ => simp [lines]

/-! ### Depth -/

/-- The lines of a value that is further in are its lines behind so many more blanks. -/
theorem lines_shift (columns indent : Nat) (value : Value) :
    lines (columns + indent) value = (lines indent value).map (line columns) := by
  induction value generalizing indent with
  | boxed inner ih =>
      rw [lines, lines, Nat.add_assoc]
      exact ih (indent + 2)
  | sequence items ih =>
      have each : ∀ item ∈ items,
          lines (columns + indent + 2) item ++ [line (columns + indent + 2) [',']] =
            (lines (indent + 2) item ++ [line (indent + 2) [',']]).map (line columns) := by
        intro item member
        simp [Nat.add_assoc, ih item member, line_line]
      simp [lines_sequence, itemLines_eq, List.map_flatMap, line_line, List.flatMap_congr each]
  | map table ih =>
      have each : ∀ slot ∈ table.slots,
          line (columns + indent) (slot.key.toList ++ [':', ' ']) ::
              lines (columns + indent + 2) slot.value =
            (line indent (slot.key.toList ++ [':', ' ']) ::
              lines (indent + 2) slot.value).map (line columns) := by
        intro slot member
        simp [Nat.add_assoc, ih slot member, line_line]
      simp [lines_map, slotLines_eq, List.map_flatMap, line_line, List.flatMap_congr each]
  | _ => simp [lines, line_line]

/-! ### Lines without an end of line -/

theorem newline_not_mem_digitChars (n : Nat) : '\n' ∉ digitChars n := by
  intro member
  cases Json.Literal.isDigit_of_mem_digitChars member

theorem newline_not_mem_integerText (n : Int) : '\n' ∉ Json.integerText n := by
  rw [Json.integerText]
  split <;> simp [newline_not_mem_digitChars]

theorem newline_not_mem_positional (d : Decimal) : '\n' ∉ d.positional [] := by
  have digits := newline_not_mem_digitChars d.digits
  have inFront (count : Nat) : '\n' ∉ (digitChars d.digits).take count :=
    mt List.mem_of_mem_take digits
  have behind (count : Nat) : '\n' ∉ (digitChars d.digits).drop count :=
    mt List.mem_of_mem_drop digits
  simp only [Decimal.positional]
  split
  · simp [digits]
  · split
    · simp [inFront, behind]
    · simp [digits]

theorem newline_not_mem_realText (number : Binary64) : '\n' ∉ realText number := by
  have size : '\n' ∉ number.absText numberStyle := by
    rw [Binary64.absText]
    split
    · simp [numberStyle]
    · exact newline_not_mem_positional _
  rw [realText]
  split
  · simp
  · split
    · split <;> simp
    · rw [Binary64.text]
      split <;> simp [size]

theorem newline_not_mem_line {content : List Char} (unbroken : '\n' ∉ content) (indent : Nat) :
    '\n' ∉ line indent content := by
  simp [line, unbroken]

/-- The lines of a value are single lines if its texts and keys are. -/
theorem newline_not_mem_lines {value : Value} (unbroken : value.Unbroken) (indent : Nat) :
    ∀ line ∈ lines indent value, '\n' ∉ line := by
  induction value generalizing indent with
  | text content =>
      have here := unbroken.self.1 content rfl
      simp [lines, newline_not_mem_line here]
  | real number => simp [lines, newline_not_mem_line (newline_not_mem_realText number)]
  | integer number => simp [lines, newline_not_mem_line (newline_not_mem_integerText _)]
  | boolean truth =>
      have word : '\n' ∉ Json.booleanText truth := by cases truth <;> decide
      simp [lines, newline_not_mem_line word]
  | boxed inner ih =>
      rw [lines]
      exact ih unbroken.inner (indent + 2)
  | sequence items ih =>
      have within : ∀ line ∈ itemLines indent items, '\n' ∉ line := by
        rw [itemLines_eq, List.forall_mem_flatMap]
        intro item member
        rw [List.forall_mem_append, List.forall_mem_singleton]
        exact ⟨ih item member (unbroken.item member) (indent + 2),
          newline_not_mem_line (by decide) _⟩
      rw [lines_sequence, List.forall_mem_append, List.forall_mem_cons, List.forall_mem_singleton]
      exact ⟨⟨newline_not_mem_line (by decide) _, within⟩, newline_not_mem_line (by decide) _⟩
  | map table ih =>
      have keys := unbroken.self.2 table rfl
      have within : ∀ line ∈ slotLines indent table.slots, '\n' ∉ line := by
        rw [slotLines_eq, List.forall_mem_flatMap]
        intro slot member
        rw [List.forall_mem_cons]
        exact ⟨newline_not_mem_line (by simp [keys slot member]) _,
          ih slot member (unbroken.entry member) (indent + 2)⟩
      rw [lines_map, List.forall_mem_append, List.forall_mem_cons, List.forall_mem_singleton]
      exact ⟨⟨newline_not_mem_line (by decide) _, within⟩, newline_not_mem_line (by decide) _⟩

/-! ### The number of lines -/

theorem length_lines (indent : Nat) (value : Value) :
    (lines indent value).length = (lines 0 value).length := by
  have shift := lines_shift indent 0 value
  rw [Nat.add_zero] at shift
  rw [shift, List.length_map]

theorem length_lines_sequence (items : List Value) :
    (lines 0 (.sequence items)).length =
      2 + (items.map fun item => (lines 0 item).length + 1).sum := by
  simp [lines_sequence, itemLines_eq, List.length_flatMap, length_lines 2]
  omega

theorem length_lines_map (table : Table Value) :
    (lines 0 (.map table)).length =
      2 + (table.slots.map fun slot => 1 + (lines 0 slot.value).length).sum := by
  simp [lines_map, slotLines_eq, List.length_flatMap, length_lines 2, Nat.add_comm 1]
  omega

end Dump

namespace Value

/-- The lines of a listing are those that it was made from. -/
theorem textLines_dump {value : Value} (unbroken : value.Unbroken) :
    Dump.textLines value.dump = Dump.lines 0 value :=
  Dump.textLines_unlines (Dump.newline_not_mem_lines unbroken 0)

/-- The number of lines in the listing of a value. -/
def lineCount (value : Value) : Nat := (Dump.textLines value.dump).length

theorem lineCount_eq {value : Value} (unbroken : value.Unbroken) :
    value.lineCount = (Dump.lines 0 value).length := by
  rw [lineCount, textLines_dump unbroken]

/-- Layers around a value indent its lines by two columns each. -/
theorem lines_wrapped (layers indent : Nat) (value : Value) :
    Dump.lines indent (value.wrapped layers) = Dump.lines (2 * layers + indent) value := by
  induction layers generalizing indent with
  | zero => simp [wrapped]
  | succ layers ih =>
      rw [wrapped, Dump.lines, ih]
      congr 1
      omega

/-- A listing ends with an end of line at every depth.  If no text and no key has one in it, the
listing at some depth is the listing itself behind so many blanks on each line, and each layer
around the value adds two columns and nothing else; and then the number of lines is the sum of
what is in the value, with one line for each key and each comma and two for the brackets. -/
theorem dump_shifts_uniformly (value : Value) :
    (∀ indent, ∃ front, Dump.unlines (Dump.lines indent value) = front ++ "\n") ∧
      (value.Unbroken →
        (∀ indent, Dump.unlines (Dump.lines indent value) = Dump.shifted indent value.dump) ∧
        (∀ layers, (value.wrapped layers).dump = Dump.shifted (2 * layers) value.dump) ∧
        (value.isScalar → value.lineCount = 1) ∧
        (∀ inner, value = .boxed inner → value.lineCount = inner.lineCount) ∧
        (∀ items, value = .sequence items →
          value.lineCount = 2 + (items.map fun item => item.lineCount + 1).sum) ∧
        ∀ table, value = .map table →
          value.lineCount = 2 + (table.slots.map fun slot => 1 + slot.value.lineCount).sum) := by
  refine ⟨fun indent => Dump.exists_unlines_eq_append (Dump.lines_ne_nil indent value), ?_⟩
  intro unbroken
  have shifts : ∀ indent,
      Dump.unlines (Dump.lines indent value) = Dump.shifted indent value.dump := by
    intro indent
    have shift := Dump.lines_shift indent 0 value
    rw [Nat.add_zero] at shift
    rw [dump, Dump.shifted_unlines (Dump.newline_not_mem_lines unbroken 0), shift]
  refine ⟨shifts, ?_, ?_, ?_, ?_, ?_⟩
  · intro layers
    rw [dump, lines_wrapped, Nat.add_zero]
    exact shifts (2 * layers)
  · intro scalar
    obtain ⟨content, alone⟩ := Dump.exists_lines_of_scalar scalar
    rw [lineCount_eq unbroken, alone, List.length_singleton]
  · rintro inner rfl
    rw [lineCount_eq unbroken, lineCount_eq unbroken.inner, Dump.lines, Dump.length_lines]
  · rintro items rfl
    have each : items.map (fun item => item.lineCount + 1) =
        items.map fun item => (Dump.lines 0 item).length + 1 := by
      apply List.map_congr_left
      intro item member
      rw [lineCount_eq (unbroken.item member)]
    rw [lineCount_eq unbroken, Dump.length_lines_sequence, each]
  · rintro table rfl
    have each : table.slots.map (fun slot => 1 + slot.value.lineCount) =
        table.slots.map fun slot => 1 + (Dump.lines 0 slot.value).length := by
      apply List.map_congr_left
      intro slot member
      rw [lineCount_eq (unbroken.entry member)]
    rw [lineCount_eq unbroken, Dump.length_lines_map, each]

/-- A sequence of a table with a box in it and of a truth value. -/
def listed : Value := .sequence [.map ⟨.hashed, [⟨"k", "k", .boxed (.text "v")⟩]⟩, .boolean true]

theorem dump_shifts_uniformly_listed :
    listed.Unbroken ∧ listed.lineCount = 9 ∧
      (listed.wrapped 1).dump =
        "  [\n    \x7b\n    k: \n        v\n    \x7d\n    ,\n    true\n    ,\n  ]\n" := by
  have unbroken : listed.Unbroken := by
    refine .of_sequence ⟨by simp, by simp⟩ ?_
    simp only [List.forall_mem_cons]
    refine ⟨.of_map ⟨by simp, by simp⟩ ?_, .of_scalar rfl ⟨by simp, by simp⟩, List.forall_mem_nil _⟩
    rw [List.forall_mem_singleton]
    exact .of_boxed ⟨by simp, by simp⟩ (.of_scalar rfl ⟨by simp, by simp⟩)
  obtain ⟨_, uniform⟩ := dump_shifts_uniformly listed
  obtain ⟨_, layers, _, _, items, _⟩ := uniform unbroken
  exact ⟨unbroken, (items _ rfl).trans (by decide), (layers 1).trans (by decide)⟩

end Value

end ConfTree
