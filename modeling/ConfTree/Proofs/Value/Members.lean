/-
Module: ConfTree.Proofs.Value.Members
Purpose: The map that is read from the text of an object, told from its members.
Main exports:
  Value.converts_of_ofJson, Value.ofJson_object, Value.read_object_of_members
-/
import ConfTree.Proofs.Json.ObjectText
import ConfTree.Proofs.Table.Pairs
import ConfTree.Proofs.Value.Null

namespace ConfTree

/-!
The members of an object are merged twice on their way into a map.  The reader of the
text merges those of the same name: the first one keeps its place and gets the value of
the last.  What is left is filed one member after the other, and under the strategy that
ignores case that merges again.  So the value of a class is that of the last of the
merged members, which need not be the last one in the text.
-/

namespace Json

variable {α β : Type} {relates : α → β → Prop}

/-- Members of the same names with related values. -/
def MembersRelated (relates : α → β → Prop) : List (String × α) → List (String × β) → Prop :=
  List.Forall₂ fun first second => first.1 = second.1 ∧ relates first.2 second.2

theorem MembersRelated.names {first : List (String × α)} {second : List (String × β)}
    (related : MembersRelated relates first second) :
    first.map (·.1) = second.map (·.1) := by
  induction related with
  | nil => rfl
  | cons same _ ih => rw [List.map_cons, List.map_cons, same.1, ih]

theorem MembersRelated.setMember {first : List (String × α)} {second : List (String × β)}
    (related : MembersRelated relates first second) (name : String) {x : α} {y : β}
    (values : relates x y) :
    MembersRelated relates (setMember first name x) (setMember second name y) := by
  have names := related.names
  by_cases present : name ∈ first.map (·.1)
  · have present' : name ∈ second.map (·.1) := names ▸ present
    simp only [Json.setMember, if_pos (any_name_iff.mpr present),
      if_pos (any_name_iff.mpr present')]
    apply List.forall₂_map_left_iff.mpr
    apply List.forall₂_map_right_iff.mpr
    apply related.imp
    intro member member' same
    by_cases named : member.1 = name
    · have named' : member'.1 = name := same.1 ▸ named
      simp [named, named', values]
    · have notNamed' : member'.1 ≠ name := same.1 ▸ named
      simpa [named, notNamed'] using same
  · have absent' : name ∉ second.map (·.1) := names ▸ present
    simp only [Json.setMember, if_neg (mt any_name_iff.mp present),
      if_neg (mt any_name_iff.mp absent')]
    exact List.rel_append related (.cons ⟨rfl, values⟩ .nil)

/-- To merge members is to do the same to related values. -/
theorem MembersRelated.ofMembers {first : List (String × α)} {second : List (String × β)}
    (related : MembersRelated relates first second) :
    MembersRelated relates (ofMembers first) (ofMembers second) := by
  apply List.rel_foldl _ _ related
  · intro merged merged' relatedMerged member member' same
    simp only [← same.1]
    exact MembersRelated.setMember relatedMerged member.1 same.2
  · exact .nil

theorem rel_head? {items : List α} {others : List β}
    (related : List.Forall₂ relates items others) :
    Option.Rel relates items.head? others.head? := by
  cases related with
  | nil => exact .none
  | cons first _ => exact .some first

namespace MembersRelated

variable {first : List (String × α)} {second : List (String × β)}

/-- The last members of a class are related if all members are. -/
theorem lastFiled (related : MembersRelated relates first second) (strategy : Strategy)
    (key : String) :
    Option.Rel (fun member pair => member.1 = pair.1 ∧ relates member.2 pair.2)
      (Table.lastFiled strategy first key) (Table.lastFiled strategy second key) := by
  have sameClass : ∀ ⦃member : String × α⦄ ⦃pair : String × β⦄,
      member.1 = pair.1 ∧ relates member.2 pair.2 →
        ((strategy.keyClass member.1 == strategy.keyClass key) = true ↔
          (strategy.keyClass pair.1 == strategy.keyClass key) = true) := by
    intro member pair same
    rw [same.1]
  have backwards := List.rel_reverse (List.rel_filter sameClass related)
  rw [Table.lastFiled, Table.lastFiled, ← List.head?_reverse, ← List.head?_reverse]
  exact rel_head? backwards

theorem lastFiled_eq_some (related : MembersRelated relates first second)
    {strategy : Strategy} {key : String} {member : String × α}
    (isLast : Table.lastFiled strategy first key = some member) :
    ∃ pair, Table.lastFiled strategy second key = some pair ∧ relates member.2 pair.2 := by
  have counterpart := related.lastFiled strategy key
  rw [isLast] at counterpart
  generalize Table.lastFiled strategy second key = last at counterpart
  cases counterpart with
  | some same => exact ⟨_, rfl, same.2⟩

theorem lastFiled_eq_none (related : MembersRelated relates first second)
    {strategy : Strategy} {key : String} (nothing : Table.lastFiled strategy first key = none) :
    Table.lastFiled strategy second key = none := by
  have counterpart := related.lastFiled strategy key
  rw [nothing] at counterpart
  generalize Table.lastFiled strategy second key = last at counterpart ⊢
  cases counterpart
  rfl

theorem map_eq {change : α → β}
    (related : MembersRelated (fun x y => change x = y) first second) :
    first.map (fun member => (member.1, change member.2)) = second := by
  rw [← List.forall₂_eq_eq_eq, List.forall₂_map_left_iff]
  exact related.imp fun _ _ same => Prod.ext same.1 same.2

end MembersRelated

end Json

namespace Value

variable {strategy : Strategy}

/-! ### Objects -/

/-- A document that has a value has it wherever it stands. -/
theorem converts_of_ofJson {json : Json} {value : Value}
    (converted : ofJson strategy json = .ok value) : Converts strategy json value := by
  have nullFree : json.NullFree := by
    intro hasNull
    obtain ⟨place, first⟩ := Json.exists_firstNull hasNull
    rw [ofJson_firstNull strategy first] at converted
    cases converted
  obtain ⟨other, converts⟩ := exists_converts strategy nullFree
  have same : (.ok value : Except Failure Value) = .ok other := converted.symm.trans (converts "")
  cases same
  exact converts

theorem ofJson_object {members : List (String × Json)} {pairs : List (String × Value)}
    (related : Json.MembersRelated (Converts strategy) members pairs) :
    ofJson strategy (.object members) = .ok (.map (Table.ofList strategy pairs)) := by
  rw [ofJson, convert, convertMembers_eq_ok related]

/-! ### Texts of objects -/

/-- The value of each text, read on its own, is that of the pair. -/
def MembersRead (strategy : Strategy) :
    List Json.MemberText → List (String × Value) → Prop :=
  List.Forall₂ fun text pair =>
    text.name = pair.1 ∧ Value.read strategy (String.ofList text.value) = .ok pair.2

/-- A text that has a value is that of a document. -/
theorem exists_document {text : List Char} {value : Value}
    (reads : Value.read strategy (String.ofList text) = .ok value) :
    ∃ json, Json.Holds Json.nestingLimit text json ∧ Converts strategy json value := by
  rw [Value.read] at reads
  cases document : Json.read (String.ofList text) with
  | error error =>
      rw [document] at reads
      cases reads
  | ok json =>
      rw [document] at reads
      exact ⟨json, Json.holds_of_read document, converts_of_ofJson reads⟩

theorem exists_members {texts : List Json.MemberText} {pairs : List (String × Value)}
    (reads : MembersRead strategy texts pairs) :
    ∃ members, Json.MembersHold Json.nestingLimit texts members ∧
      Json.MembersRelated (Converts strategy) members pairs := by
  induction reads with
  | nil => exact ⟨[], .nil, .nil⟩
  | @cons text pair _ _ first _ ih =>
      obtain ⟨members, hold, related⟩ := ih
      obtain ⟨json, holds, converts⟩ := exists_document first.2
      exact ⟨(text.name, json) :: members, .cons ⟨rfl, holds⟩ hold,
        .cons ⟨first.1, converts⟩ related⟩

/-- The text of an object, if it is not too deep, is read as the table of its members, after
members of the same name have been merged.  The value that is kept for a key is that of the
last merged member of its class.  So this is the table of the members as they stand in the
text if and only if the last member of each class has the same value after merging: where
each key is a class of its own that is always so, and under any strategy it is so if in each
class the last member of the text has the name that was the last to come up. -/
theorem read_object_of_members (strategy : Strategy) (object : Json.ObjectText)
    {pairs : List (String × Value)} (reads : MembersRead strategy object.members pairs)
    (shallow : ∀ line column, Json.read object.text ≠ .error ⟨.tooDeep, line, column⟩) :
    Value.read strategy object.text =
        .ok (.map (Table.ofList strategy (Json.ofMembers pairs))) ∧
      (∀ key, (Table.ofList strategy (Json.ofMembers pairs)).get? key =
        (Table.lastFiled strategy (Json.ofMembers pairs) key).map (·.2)) ∧
      (Value.read strategy object.text = .ok (.map (Table.ofList strategy pairs)) ↔
        ∀ key, (Table.lastFiled strategy (Json.ofMembers pairs) key).map (·.2) =
          (Table.lastFiled strategy pairs key).map (·.2)) ∧
      (strategy ≠ .hashedCaseInsensitive →
        Value.read strategy object.text = .ok (.map (Table.ofList strategy pairs))) ∧
      ((∀ key, (Table.lastFiled strategy (Json.ofMembers pairs) key).map (·.1) =
          (Table.lastFiled strategy pairs key).map (·.1)) →
        Value.read strategy object.text = .ok (.map (Table.ofList strategy pairs))) := by
  obtain ⟨members, hold, related⟩ := exists_members reads
  have document : Json.read object.text = .ok (.object (Json.ofMembers members)) := by
    rcases object.read_or_too_deep hold with reads | ⟨line, column, refused⟩
    · exact reads
    · exact absurd refused (shallow line column)
  have merged : Value.read strategy object.text =
      .ok (.map (Table.ofList strategy (Json.ofMembers pairs))) := by
    rw [Value.read, document]
    exact ofJson_object related.ofMembers
  refine ⟨merged, Table.get?_ofList strategy _, ?_, ?_, ?_⟩
  · rw [merged, Except.ok.injEq, Value.map.injEq]
    exact Table.ofList_ofMembers_eq_iff
  · intro ownClass
    rw [merged, Table.ofList_ofMembers_of_ne ownClass]
  · intro sameLast
    rw [merged, Table.ofList_ofMembers sameLast]

/-! ### Names that come up again -/

/-- The text of a member without blanks around its name. -/
def closeMember (name : String) (value : List Char) : Json.MemberText where
  name := name
  quoted := name.toList.flatMap Json.Quoted.escape ++ ['"']
  before := []
  between := []
  value := value
  quoted_reads := Json.Quoted.read_write name []
  before_blank := Json.blank_nil
  between_blank := Json.blank_nil

/-- Two members of the same name, and between them one whose name differs in case. -/
def interleaved : Json.ObjectText where
  lead := []
  inside := []
  members := [closeMember "a" ['1'], closeMember "A" ['2'], closeMember "a" ['3']]
  trail := []
  lead_blank := Json.blank_nil
  inside_blank := Json.blank_nil
  trail_blank := Json.blank_nil

theorem membersRead_interleaved (strategy : Strategy) : MembersRead strategy interleaved.members
    [("a", .integer 1), ("A", .integer 2), ("a", .integer 3)] :=
  .cons ⟨rfl, rfl⟩ (.cons ⟨rfl, rfl⟩ (.cons ⟨rfl, rfl⟩ .nil))

theorem document_interleaved :
    Json.read interleaved.text = .ok (.object [("a", .integer 3), ("A", .integer 2)]) := by
  have one : Json.Holds 126 ['1'] (.integer 1) := ⟨[], Json.blank_nil, rfl⟩
  have two : Json.Holds 126 ['2'] (.integer 2) := ⟨[], Json.blank_nil, rfl⟩
  have three : Json.Holds 126 ['3'] (.integer 3) := ⟨[], Json.blank_nil, rfl⟩
  have hold : Json.MembersHold 126 interleaved.members
      [("a", .integer 1), ("A", .integer 2), ("a", .integer 3)] :=
    .cons ⟨rfl, one⟩ (.cons ⟨rfl, two⟩ (.cons ⟨rfl, three⟩ .nil))
  exact interleaved.read_shallow hold

theorem shallow_interleaved (line column : Nat) :
    Json.read interleaved.text ≠ .error ⟨.tooDeep, line, column⟩ := by
  rw [document_interleaved]
  nofun

/-- Where case matters, the repeated name has the last value in the text. -/
theorem read_interleaved_ordered :
    Value.read .ordered interleaved.text = .ok (.map (Table.ofList .ordered
      [("a", .integer 1), ("A", .integer 2), ("a", .integer 3)])) :=
  (read_object_of_members .ordered interleaved (membersRead_interleaved .ordered)
    shallow_interleaved).2.2.2.1 nofun

/-- Where case does not matter, the value that is kept is not the last one in the text. -/
theorem read_interleaved_ignoring_case :
    interleaved.text = "\x7b\"a\":1,\"A\":2,\"a\":3\x7d" ∧
      MembersRead .hashedCaseInsensitive interleaved.members
        [("a", .integer 1), ("A", .integer 2), ("a", .integer 3)] ∧
      (∀ line column, Json.read interleaved.text ≠ .error ⟨.tooDeep, line, column⟩) ∧
      (∃ table, Value.read .hashedCaseInsensitive interleaved.text = .ok (.map table) ∧
        table.get? "a" = some (.integer 2)) ∧
      (Table.ofList .hashedCaseInsensitive
        [("a", .integer 1), ("A", .integer 2), ("a", .integer 3)]).get? "a" =
          some (Value.integer 3) := by
  refine ⟨rfl, membersRead_interleaved _, shallow_interleaved, ?_, rfl⟩
  rw [Value.read, document_interleaved]
  exact ⟨_, rfl, rfl⟩

end Value

end ConfTree
