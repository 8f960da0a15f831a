/-
Module: ConfTree.Proofs.Dump.Faithfulness
Purpose: Where no text shows like something else, a listing tells which value it lists.
Main exports:
  Dump.Plain, Value.Unambiguous, Dump.opening, Dump.layers, Dump.line_inj, Dump.Tells,
  Dump.tells_of_unambiguous, Value.eq_of_dump_eq
-/
import ConfTree.Proofs.Dump.Indentation
import ConfTree.Proofs.Path.Index

namespace ConfTree

/-!
A listing has neither quotes nor escapes: a text that is spelled like a bracket, a truth value or a
number cannot be told from one.  Where there is no such text, the lines can be read in one way
only, from the front to the back.

The first line of a value tells most of it.  What stands behind the blanks tells a scalar and the
kind of a container, and the blanks tell how many boxes there are around it, as long as what stands
behind them does not begin with a blank itself.  Keys, and texts inside a container, may still look
like what closes it.  A key is told from a brace by its end, and an item from a bracket by standing
further in.
-/

namespace Dump

/-- The text shows like nothing but a text: it is a single line that does not begin with a blank,
and it is neither an opening bracket nor a truth value nor an integer. -/
structure Plain (content : String) : Prop where
  unbroken : '\n' ∉ content.toList
  notBlank : content.toList.head? ≠ some ' '
  notBrace : content ≠ "\x7b"
  notBracket : content ≠ "["
  notTrue : content ≠ "true"
  notFalse : content ≠ "false"
  notInteger : ∀ number : Int64, content ≠ toString number.toInt

/-- What is asked of each part of a value: it is not a real, if it is a text it is plain, and if it
is a table it is a well-filed one, ordered and with single lines for keys. -/
structure Clear (part : Value) : Prop where
  notReal : part.kind ≠ .real
  plain : ∀ content, part = .text content → Plain content
  ordered : ∀ table, part = .map table → table.strategy = .ordered ∧ table.WellFiled
  keys : ∀ table, part = .map table → ∀ slot ∈ table.slots, '\n' ∉ slot.key.toList

theorem Clear.text {content : String} (plain : Plain content) : Clear (.text content) :=
  ⟨by simp [Value.kind], by simpa using plain, by simp, by simp⟩

theorem Clear.boxed (inner : Value) : Clear (.boxed inner) :=
  ⟨by simp [Value.kind], by simp, by simp, by simp⟩

theorem Clear.sequence (items : List Value) : Clear (.sequence items) :=
  ⟨by simp [Value.kind], by simp, by simp, by simp⟩

theorem Clear.map {table : Table Value} (ordered : table.strategy = .ordered)
    (wellFiled : table.WellFiled) (keys : ∀ slot ∈ table.slots, '\n' ∉ slot.key.toList) :
    Clear (.map table) :=
  ⟨by simp [Value.kind], by simp, by simpa using ⟨ordered, wellFiled⟩, by simpa using keys⟩

end Dump

/-- Each part of the value is clear. -/
def Value.Unambiguous (value : Value) : Prop := value.Everywhere Dump.Clear

theorem Value.Unambiguous.unbroken {value : Value} (clear : value.Unambiguous) : value.Unbroken :=
  fun part isPart =>
    have here := clear part isPart
    ⟨fun content isText => (here.plain content isText).unbroken, here.keys⟩

/-- Ordered tables file each slot under the key that it shows. -/
theorem Value.Unambiguous.filed {table : Table Value} (clear : (map table).Unambiguous) :
    ∀ slot ∈ table.slots, slot.filed = slot.key := by
  intro slot member
  obtain ⟨ordered, wellFiled⟩ := clear.self.ordered table rfl
  have filed := wellFiled.filed slot member
  rw [ordered] at filed
  exact filed

namespace Dump

/-! ### First lines -/

/-- What the first line of a value shows behind its blanks. -/
def opening : Value → List Char
  | .text content => content.toList
  | .real number => realText number
  | .integer number => Json.integerText number.toInt
  | .boolean truth => Json.booleanText truth
  | .boxed inner => opening inner
  | .sequence _ => ['[']
  | .map _ => ['\x7b']

/-- The number of boxes around a value. -/
def layers : Value → Nat
  | .boxed inner => layers inner + 1
  | _ => 0

theorem exists_lines_eq_cons (indent : Nat) (value : Value) :
    ∃ others, lines indent value = line (indent + 2 * layers value) (opening value) :: others := by
  induction value generalizing indent with
  | boxed inner ih =>
      obtain ⟨others, shows⟩ := ih (indent + 2)
      refine ⟨others, ?_⟩
      rw [lines, shows, layers, opening, Nat.mul_succ, Nat.add_assoc, Nat.add_comm 2]
  | map table => exact ⟨_, lines_map indent table⟩
  | _ => exact ⟨_, by rw [lines]; rfl⟩

/-- Blanks are told from what stands behind them if that begins with something else. -/
theorem line_inj {indent other : Nat} {content shown : List Char}
    (notBlank : content.head? ≠ some ' ') (otherNotBlank : shown.head? ≠ some ' ')
    (same : line indent content = line other shown) : indent = other ∧ content = shown := by
  induction indent generalizing other with
  | zero =>
      cases other with
      | zero => exact ⟨rfl, by simpa [line] using same⟩
      | succ other => simp [line, List.replicate_succ] at same; simp [same] at notBlank
  | succ indent ih =>
      cases other with
      | zero =>
          simp [line, List.replicate_succ] at same
          simp [← same] at otherNotBlank
      | succ other =>
          simp [line, List.replicate_succ] at same
          obtain ⟨sameIndent, sameContent⟩ := ih same
          exact ⟨congrArg Nat.succ sameIndent, sameContent⟩

/-! ### The texts of scalars -/

theorem toList_toString_int (n : Int) : (toString n).toList = Json.integerText n := by
  cases n with
  | ofNat n => exact Path.toList_toString_natCast n
  | negSucc n =>
      rw [Path.toList_toString_negSucc, Json.integerText, if_pos (Int.negSucc_lt_zero n)]
      rfl

theorem integerText_ne {text : List Char}
    (notNumber : ∀ first ∈ text.head?, Json.beginsNumber first = false) (n : Int) :
    Json.integerText n ≠ text := by
  obtain ⟨first, others, written, begins⟩ :=
    (Json.Literal.spells_written (Json.Literal.proper_ofInt n)).begins
  rw [← Json.Literal.written_ofInt, written]
  rintro rfl
  rw [notNumber first rfl] at begins
  cases begins

theorem integerText_ne_booleanText (n : Int) (truth : Bool) :
    Json.integerText n ≠ Json.booleanText truth := by
  cases truth <;> exact integerText_ne (by simp [Json.booleanText, Json.beginsNumber]) n

theorem booleanText_inj {truth other : Bool}
    (same : Json.booleanText truth = Json.booleanText other) : truth = other := by
  cases truth <;> cases other <;> simp [Json.booleanText] at same ⊢

namespace Plain

variable {content : String} (plain : Plain content)

include plain

theorem toList_ne_brace : content.toList ≠ ['\x7b'] :=
  fun same => plain.notBrace (String.toList_injective same)

theorem toList_ne_bracket : content.toList ≠ ['['] :=
  fun same => plain.notBracket (String.toList_injective same)

theorem toList_ne_booleanText (truth : Bool) : content.toList ≠ Json.booleanText truth := by
  intro same
  cases truth with
  | false => exact plain.notFalse (String.toList_injective same)
  | true => exact plain.notTrue (String.toList_injective same)

theorem toList_ne_integerText (number : Int64) :
    content.toList ≠ Json.integerText number.toInt := by
  rw [← toList_toString_int]
  exact fun same => plain.notInteger number (String.toList_injective same)

end Plain

/-! ### What an opening tells -/

section

variable {value : Value} (clear : value.Unambiguous)

include clear

theorem opening_not_blank : (opening value).head? ≠ some ' ' := by
  induction value with
  | text content => exact (clear.self.plain content rfl).notBlank
  | real number => exact absurd rfl clear.self.notReal
  | integer number =>
      intro blank
      obtain ⟨others, text⟩ := List.head?_eq_some_iff.mp blank
      exact integerText_ne (by simp [Json.beginsNumber]) _ text
  | boolean truth => cases truth <;> simp [opening, Json.booleanText]
  | boxed inner ih => exact ih clear.inner
  | sequence => simp [opening]
  | map => simp [opening]

variable (bare : layers value = 0)

include bare

theorem eq_text_of_opening {content : String} (plain : Plain content)
    (same : opening value = content.toList) : value = .text content := by
  cases value with
  | text other => rw [String.toList_injective same]
  | real => exact absurd rfl clear.self.notReal
  | integer => exact absurd same.symm (plain.toList_ne_integerText _)
  | boolean => exact absurd same.symm (plain.toList_ne_booleanText _)
  | boxed => cases bare
  | sequence => exact absurd same.symm plain.toList_ne_bracket
  | map => exact absurd same.symm plain.toList_ne_brace

theorem eq_integer_of_opening {number : Int64}
    (same : opening value = Json.integerText number.toInt) : value = .integer number := by
  cases value with
  | text content => exact absurd same ((clear.self.plain content rfl).toList_ne_integerText _)
  | real => exact absurd rfl clear.self.notReal
  | integer other => rw [Int64.toInt_inj.mp (Json.integerText_inj same)]
  | boolean => exact absurd same.symm (integerText_ne_booleanText _ _)
  | boxed => cases bare
  | sequence => exact absurd same.symm (integerText_ne (by simp [opening, Json.beginsNumber]) _)
  | map => exact absurd same.symm (integerText_ne (by simp [opening, Json.beginsNumber]) _)

theorem eq_boolean_of_opening {truth : Bool} (same : opening value = Json.booleanText truth) :
    value = .boolean truth := by
  cases value with
  | text content => exact absurd same ((clear.self.plain content rfl).toList_ne_booleanText _)
  | real => exact absurd rfl clear.self.notReal
  | integer => exact absurd same (integerText_ne_booleanText _ _)
  | boolean other => rw [booleanText_inj same]
  | boxed => cases bare
  | sequence => cases truth <;> simp [opening, Json.booleanText] at same
  | map => cases truth <;> simp [opening, Json.booleanText] at same

theorem eq_sequence_of_opening (same : opening value = ['[']) :
    ∃ items, value = .sequence items := by
  cases value with
  | text content => exact absurd same (clear.self.plain content rfl).toList_ne_bracket
  | real => exact absurd rfl clear.self.notReal
  | integer => exact absurd same (integerText_ne (by simp [Json.beginsNumber]) _)
  | boolean truth => cases truth <;> simp [opening, Json.booleanText] at same
  | boxed => cases bare
  | sequence items => exact ⟨items, rfl⟩
  | map => simp [opening] at same

theorem eq_map_of_opening (same : opening value = ['\x7b']) : ∃ table, value = .map table := by
  cases value with
  | text content => exact absurd same (clear.self.plain content rfl).toList_ne_brace
  | real => exact absurd rfl clear.self.notReal
  | integer => exact absurd same (integerText_ne (by simp [Json.beginsNumber]) _)
  | boolean truth => cases truth <;> simp [opening, Json.booleanText] at same
  | boxed => cases bare
  | sequence => simp [opening] at same
  | map table => exact ⟨table, rfl⟩

end

/-! ### Reading from the front -/

/-- The value is the only one whose lines stand where its lines do, and it is told where they end,
whatever follows them. -/
def Tells (indent : Nat) (value : Value) : Prop :=
  ∀ other : Value, other.Unambiguous → ∀ rest behind : List (List Char),
    lines indent value ++ rest = lines indent other ++ behind → value = other ∧ rest = behind

/-- Values that begin with the same line have as many boxes around them and the same opening. -/
theorem same_first_line {indent : Nat} {value other : Value} (clear : value.Unambiguous)
    (otherClear : other.Unambiguous) {rest behind : List (List Char)}
    (same : lines indent value ++ rest = lines indent other ++ behind) :
    layers value = layers other ∧ opening value = opening other := by
  obtain ⟨_, shows⟩ := exists_lines_eq_cons indent value
  obtain ⟨_, otherShows⟩ := exists_lines_eq_cons indent other
  rw [shows, otherShows] at same
  have first := (List.cons.inj same).1
  obtain ⟨indents, openings⟩ :=
    line_inj (opening_not_blank clear) (opening_not_blank otherClear) first
  exact ⟨by omega, openings⟩

/-- An item stands further in than the bracket that closes its sequence. -/
theorem bracket_ne_item {indent : Nat} {item : Value} (clear : item.Unambiguous)
    (rest behind : List (List Char)) :
    line indent [']'] :: rest ≠ lines (indent + 2) item ++ behind := by
  obtain ⟨_, shows⟩ := exists_lines_eq_cons (indent + 2) item
  rw [shows]
  intro same
  have first := (List.cons.inj same).1
  have indents := (line_inj (by simp) (opening_not_blank clear) first).1
  omega

/-- A line with a key ends in another way than a closing brace. -/
theorem brace_ne_key (indent : Nat) (key : List Char) :
    line indent ['\x7d'] ≠ line indent (key ++ [':', ' ']) := by
  intro same
  have lengths := congrArg List.length same
  simp [line] at lengths

theorem itemLines_append_inj {indent : Nat} {items others : List Value}
    (each : ∀ item ∈ items, Tells (indent + 2) item)
    (clear : ∀ item ∈ items, item.Unambiguous) (otherClear : ∀ other ∈ others, other.Unambiguous)
    {rest behind : List (List Char)}
    (same : itemLines indent items ++ line indent [']'] :: rest =
      itemLines indent others ++ line indent [']'] :: behind) :
    items = others ∧ rest = behind := by
  induction items generalizing others with
  | nil =>
      cases others with
      | nil => exact ⟨rfl, by simpa [itemLines] using same⟩
      | cons other others =>
          simp only [itemLines, List.nil_append, List.append_assoc] at same
          exact absurd same (bracket_ne_item (otherClear other List.mem_cons_self) _ _)
  | cons item items ih =>
      rw [List.forall_mem_cons] at each clear
      cases others with
      | nil =>
          simp only [itemLines, List.nil_append, List.append_assoc] at same
          exact absurd same.symm (bracket_ne_item clear.1 _ _)
      | cons other others =>
          rw [List.forall_mem_cons] at otherClear
          simp only [itemLines, List.append_assoc] at same
          obtain ⟨rfl, further⟩ := each.1 other otherClear.1 _ _ same
          obtain ⟨rfl, following⟩ := ih each.2 clear.2 otherClear.2 (List.cons.inj further).2
          exact ⟨rfl, following⟩

theorem slotLines_append_inj {indent : Nat} {slots others : List (Slot Value)}
    (each : ∀ slot ∈ slots, Tells (indent + 2) slot.value)
    (filed : ∀ slot ∈ slots, slot.filed = slot.key)
    (otherFiled : ∀ other ∈ others, other.filed = other.key)
    (otherClear : ∀ other ∈ others, other.value.Unambiguous) {rest behind : List (List Char)}
    (same : slotLines indent slots ++ line indent ['\x7d'] :: rest =
      slotLines indent others ++ line indent ['\x7d'] :: behind) :
    slots = others ∧ rest = behind := by
  induction slots generalizing others with
  | nil =>
      cases others with
      | nil => exact ⟨rfl, by simpa [slotLines] using same⟩
      | cons other others =>
          simp only [slotLines, List.nil_append, List.cons_append] at same
          exact absurd (List.cons.inj same).1 (brace_ne_key _ _)
  | cons slot slots ih =>
      rw [List.forall_mem_cons] at each filed
      obtain ⟨storage, key, value⟩ := slot
      cases others with
      | nil =>
          simp only [slotLines, List.nil_append, List.cons_append] at same
          exact absurd (List.cons.inj same).1.symm (brace_ne_key _ _)
      | cons other others =>
          rw [List.forall_mem_cons] at otherFiled otherClear
          obtain ⟨otherStorage, otherKey, otherValue⟩ := other
          simp only [slotLines, List.append_assoc, List.cons_append] at same
          obtain ⟨keyLine, further⟩ := List.cons.inj same
          have sameKey : key = otherKey := by
            have contents := List.append_cancel_left keyLine
            exact String.toList_injective (List.append_cancel_right contents)
          obtain ⟨rfl, following⟩ := each.1 otherValue otherClear.1 _ _ further
          obtain ⟨rfl, last⟩ := ih each.2 filed.2 otherFiled.2 otherClear.2 following
          obtain rfl : storage = key := filed.1
          obtain rfl : otherStorage = otherKey := otherFiled.1
          exact ⟨by rw [sameKey], last⟩

/-- The lines of an unambiguous value tell the value. -/
theorem tells_of_unambiguous {value : Value} (clear : value.Unambiguous) (indent : Nat) :
    Tells indent value := by
  induction value generalizing indent with
  | text content =>
      intro other otherClear rest behind same
      obtain ⟨bare, shows⟩ := same_first_line clear otherClear same
      obtain rfl := eq_text_of_opening otherClear bare.symm (clear.self.plain content rfl) shows.symm
      exact ⟨rfl, List.append_cancel_left same⟩
  | real => exact absurd rfl clear.self.notReal
  | integer number =>
      intro other otherClear rest behind same
      obtain ⟨bare, shows⟩ := same_first_line clear otherClear same
      obtain rfl := eq_integer_of_opening otherClear bare.symm shows.symm
      exact ⟨rfl, List.append_cancel_left same⟩
  | boolean truth =>
      intro other otherClear rest behind same
      obtain ⟨bare, shows⟩ := same_first_line clear otherClear same
      obtain rfl := eq_boolean_of_opening otherClear bare.symm shows.symm
      exact ⟨rfl, List.append_cancel_left same⟩
  | boxed inner ih =>
      intro other otherClear rest behind same
      obtain ⟨boxes, _⟩ := same_first_line clear otherClear same
      cases other with
      | boxed otherInner =>
          rw [lines, lines] at same
          obtain ⟨rfl, following⟩ :=
            ih clear.inner (indent + 2) otherInner otherClear.inner _ _ same
          exact ⟨rfl, following⟩
      | _ => cases boxes
  | sequence items ih =>
      intro other otherClear rest behind same
      obtain ⟨bare, shows⟩ := same_first_line clear otherClear same
      obtain ⟨others, rfl⟩ := eq_sequence_of_opening otherClear bare.symm shows.symm
      simp only [lines_sequence, List.cons_append, List.append_assoc, List.nil_append] at same
      obtain ⟨rfl, following⟩ := itemLines_append_inj
        (fun item member => ih item member (clear.item member) (indent + 2))
        (fun _ member => clear.item member) (fun _ member => otherClear.item member)
        (List.cons.inj same).2
      exact ⟨rfl, following⟩
  | map table ih =>
      intro other otherClear rest behind same
      obtain ⟨bare, shows⟩ := same_first_line clear otherClear same
      obtain ⟨otherTable, rfl⟩ := eq_map_of_opening otherClear bare.symm shows.symm
      simp only [lines_map, List.cons_append, List.append_assoc, List.nil_append] at same
      obtain ⟨sameSlots, following⟩ := slotLines_append_inj
        (fun slot member => ih slot member (clear.entry member) (indent + 2))
        clear.filed otherClear.filed (fun _ member => otherClear.entry member)
        (List.cons.inj same).2
      have strategy : table.strategy = otherTable.strategy :=
        (clear.self.ordered table rfl).1.trans (otherClear.self.ordered otherTable rfl).1.symm
      refine ⟨congrArg Value.map ?_, following⟩
      cases table
      cases otherTable
      exact congr (congrArg Table.mk strategy) sameSlots

end Dump

namespace Value

/-- Where no text can be taken for something else, two values with the same listing are the same
value, with the same boxes in the same places. -/
theorem eq_of_dump_eq {first second : Value} (clear : first.Unambiguous)
    (otherClear : second.Unambiguous) (same : first.dump = second.dump) : first = second := by
  have sameLines : Dump.lines 0 first = Dump.lines 0 second := by
    rw [← textLines_dump clear.unbroken, ← textLines_dump otherClear.unbroken, same]
  have tells := Dump.tells_of_unambiguous clear 0 second otherClear [] []
  rw [List.append_nil, List.append_nil] at tells
  exact (tells sameLines).1

/-- Texts and keys that look like what closes a container, and one that is empty. -/
def closers : Value :=
  .sequence [.text "\x7d", .boxed (.map ⟨.ordered, [⟨"", "", .text ","⟩, ⟨"]", "]", .text ""⟩]⟩)]

/-- The value of `closers`, made by filing its keys the other way round. -/
def closersAnew : Value :=
  .sequence [.text "\x7d", .boxed (.map (.ofList .ordered [("]", .text ""), ("", .text ",")]))]

theorem eq_of_dump_eq_closers :
    closers.Unambiguous ∧ closersAnew.Unambiguous ∧ closers.dump = closersAnew.dump ∧
      closers = closersAnew := by
  have plain (content : String) (known : content ∈ ["\x7d", ",", ""]) :
      (Value.text content).Unambiguous := by
    have among : content = "\x7d" ∨ content = "," ∨ content = "" := by simpa using known
    have notNumber : ∀ first ∈ content.toList.head?, Json.beginsNumber first = false := by
      rcases among with rfl | rfl | rfl <;> simp [Json.beginsNumber]
    have shows : '\n' ∉ content.toList ∧ content.toList.head? ≠ some ' ' ∧ content ≠ "\x7b" ∧
        content ≠ "[" ∧ content ≠ "true" ∧ content ≠ "false" := by
      rcases among with rfl | rfl | rfl <;> decide
    obtain ⟨unbroken, notBlank, notBrace, notBracket, notTrue, notFalse⟩ := shows
    refine .of_scalar rfl (.text ⟨unbroken, notBlank, notBrace, notBracket, notTrue, notFalse, ?_⟩)
    intro number same
    have written := congrArg String.toList same
    rw [Dump.toList_toString_int] at written
    exact Dump.integerText_ne notNumber _ written.symm
  have clear : closers.Unambiguous := by
    refine .of_sequence (.sequence _) ?_
    simp only [List.forall_mem_cons]
    refine ⟨plain _ (by decide), .of_boxed (.boxed _) ?_, List.forall_mem_nil _⟩
    refine .of_map (.map rfl ?_ (by decide)) ?_
    · exact ⟨by simp [Strategy.keyClass], by simp, fun _ => by decide⟩
    · simp only [List.forall_mem_cons]
      exact ⟨plain _ (by decide), plain _ (by decide), List.forall_mem_nil _⟩
  exact ⟨clear, clear, rfl, eq_of_dump_eq clear clear rfl⟩

end Value

end ConfTree
