/-
Module: ConfTree.Proofs.Json.Layout
Purpose: The forms of JSON text as one writer with a choice of blanks.
Main exports:
  Json.Layout, Json.Layout.written, Json.Layout.written_compact,
  Json.Layout.written_pretty
-/
import ConfTree.Json.Reader
import ConfTree.Json.Writer

namespace ConfTree.Json

/-!
The compact form and the pretty form of a tree differ in nothing but blanks: in front
of each item of a container, in front of its closing bracket, and behind a colon.  A
`Layout` is a choice of those blanks, and `Layout.written` is the text that results.
What is proved of it holds of both forms.
-/

/-- The blanks of a form of text. -/
structure Layout where
  /-- What stands in front of an item or a closing bracket inside that many containers. -/
  gap : Nat → List Char
  /-- What stands behind a colon. -/
  space : List Char
  gap_blank : ∀ level, ∀ c ∈ gap level, isBlank c
  space_blank : ∀ c ∈ space, isBlank c

/-- The texts of the items after the first one, and the closing bracket. -/
def moreText (close : Char) (before behind : List Char) : List (List Char) → List Char
  | [] => behind ++ [close]
  | text :: others => ',' :: before ++ text ++ moreText close before behind others

/-- The texts of all items, and the closing bracket. -/
def itemsText (close : Char) (before behind : List Char) : List (List Char) → List Char
  | [] => [close]
  | text :: others => before ++ text ++ moreText close before behind others

theorem sizeOf_item_lt {items : List Json} {item : Json} (member : item ∈ items) :
    sizeOf item < sizeOf (Json.array items) := by
  have smaller := List.sizeOf_lt_of_mem member
  simp only [Json.array.sizeOf_spec]
  omega

theorem sizeOf_member_lt {members : List (String × Json)} {member : String × Json}
    (isMember : member ∈ members) : sizeOf member.2 < sizeOf (Json.object members) := by
  have smaller := List.sizeOf_lt_of_mem isMember
  cases member
  simp only [Prod.mk.sizeOf_spec, Json.object.sizeOf_spec] at smaller ⊢
  omega

namespace Layout

/-- The text of a member whose value has that text. -/
def memberText (layout : Layout) (name : String) (text : List Char) : List Char :=
  Quoted.write name ++ ':' :: (layout.space ++ text)

/-- The text of a tree inside that many containers. -/
def written (layout : Layout) (level : Nat) : Json → List Char
  | .null => ['n', 'u', 'l', 'l']
  | .boolean value => booleanText value
  | .integer value => integerText value
  | .real value => realText value
  | .string value => Quoted.write value
  | .array items =>
      '[' :: itemsText squareBrackets.close (layout.gap (level + 1)) (layout.gap level)
        (items.map fun item => layout.written (level + 1) item)
  | .object members =>
      '\x7b' :: itemsText curlyBrackets.close (layout.gap (level + 1)) (layout.gap level)
        (members.map fun member =>
          layout.memberText member.1 (layout.written (level + 1) member.2))
termination_by json => sizeOf json
decreasing_by
  · exact sizeOf_item_lt ‹_›
  · exact sizeOf_member_lt ‹_›

/-! ### The two forms -/

/-- No blanks at all. -/
def compact : Layout where
  gap := fun _ => []
  space := []
  gap_blank := by simp
  space_blank := by simp

/-- Each item on a line of its own. -/
def pretty : Layout where
  gap := fun level => newLine (2 * level)
  space := [' ']
  gap_blank := by
    intro level c member
    simp only [newLine, List.mem_cons, List.mem_replicate] at member
    rcases member with rfl | ⟨_, rfl⟩ <;> decide
  space_blank := by simp [isBlank]

/-- A writer that goes through a container item by item writes the text of its items. -/
theorem eq_itemsText {α : Type} (whole more : List α → List Char) (text : α → List Char)
    {opening close : Char} {before behind : List Char}
    (nothing : whole [] = [opening, close])
    (first : ∀ item rest, whole (item :: rest) = opening :: (before ++ text item ++ more rest))
    (last : more [] = behind ++ [close])
    (step : ∀ item rest, more (item :: rest) = ',' :: (before ++ text item ++ more rest))
    (items : List α) :
    whole items = opening :: itemsText close before behind (items.map text) := by
  have others : ∀ rest, more rest = moreText close before behind (rest.map text) := by
    intro rest
    induction rest with
    | nil => exact last
    | cons item rest ih =>
        rw [step, ih]
        rfl
  cases items with
  | nil => exact nothing
  | cons item rest =>
      rw [first, others]
      rfl

theorem compactChars_array (items : List Json) :
    compactChars (.array items) =
      '[' :: itemsText squareBrackets.close [] [] (items.map compactChars) :=
  eq_itemsText (fun items => compactChars (.array items)) compactItems compactChars
    rfl (fun _ _ => rfl) rfl (fun _ _ => rfl) items

theorem compactChars_object (members : List (String × Json)) :
    compactChars (.object members) =
      '\x7b' :: itemsText curlyBrackets.close [] []
        (members.map fun member => compact.memberText member.1 (compactChars member.2)) :=
  eq_itemsText (fun members => compactChars (.object members)) compactMembers
    (fun member => compact.memberText member.1 (compactChars member.2)) rfl
    (fun _ _ => by simp [compactChars, memberText, compact]) rfl
    (fun _ _ => by simp [compactMembers, memberText, compact]) members

theorem prettyChars_array (indent : Nat) (items : List Json) :
    prettyChars indent (.array items) =
      '[' :: itemsText squareBrackets.close (newLine (indent + 2)) (newLine indent)
        (items.map fun item => prettyChars (indent + 2) item) :=
  eq_itemsText (fun items => prettyChars indent (.array items)) (prettyItems indent)
    (fun item => prettyChars (indent + 2) item) rfl (fun _ _ => rfl) rfl (fun _ _ => rfl) items

theorem prettyChars_object (indent : Nat) (members : List (String × Json)) :
    prettyChars indent (.object members) =
      '\x7b' :: itemsText curlyBrackets.close (newLine (indent + 2)) (newLine indent)
        (members.map fun member =>
          pretty.memberText member.1 (prettyChars (indent + 2) member.2)) :=
  eq_itemsText (fun members => prettyChars indent (.object members)) (prettyMembers indent)
    (fun member => pretty.memberText member.1 (prettyChars (indent + 2) member.2)) rfl
    (fun _ _ => by simp [prettyChars, memberText, pretty]) rfl
    (fun _ _ => by simp [prettyMembers, memberText, pretty]) members

/-- The compact form is the layout without blanks. -/
theorem written_compact (level : Nat) (json : Json) :
    compact.written level json = compactChars json := by
  fun_induction compact.written level json with
  | case6 level items ih =>
      rw [compactChars_array, List.map_congr_left ih]
      rfl
  | case7 level members ih =>
      have same : ∀ member ∈ members,
          compact.memberText member.1 (compact.written (level + 1) member.2) =
            compact.memberText member.1 (compactChars member.2) := by
        intro member isMember
        rw [ih member isMember]
      rw [compactChars_object, List.map_congr_left same]
      rfl
  | _ => rfl

/-- The pretty form is the layout with lines, two columns for each container. -/
theorem written_pretty (level : Nat) (json : Json) :
    pretty.written level json = prettyChars (2 * level) json := by
  fun_induction pretty.written level json with
  | case6 level items ih =>
      rw [prettyChars_array, List.map_congr_left ih]
      rfl
  | case7 level members ih =>
      have same : ∀ member ∈ members,
          pretty.memberText member.1 (pretty.written (level + 1) member.2) =
            pretty.memberText member.1 (prettyChars (2 * level + 2) member.2) := by
        intro member isMember
        rw [ih member isMember]
        rfl
      rw [prettyChars_object, List.map_congr_left same]
      rfl
  | _ => rfl

end Layout

end ConfTree.Json
