/-
Module: ConfTree.Proofs.Value.Conversion
Purpose: Which documents have a value, and exactly which one.
Main exports:
  Value.ofJson_error_iff, Value.MadeOf, Value.Converts.madeOf, Value.ofJson_exactly
-/
import ConfTree.Proofs.Table.Gathering
import ConfTree.Proofs.Value.Document

namespace ConfTree.Value

/-!
A null anywhere in a document keeps it from having a value, even where nothing would be left of
it: members are converted before they are filed, so that one member is about to replace another
is not known yet when the other one is converted.  A document without nulls has a value, and each
container in it becomes a container of the values of what it holds.

`MadeOf` says so for a single step.  As it refers to the conversion of the items and members, and
as it holds of each part of a document, it says what becomes of the document at any depth.
-/

variable {strategy : Strategy} {json : Json} {value : Value}

/-! ### Documents that have a value -/

/-- Exactly the documents with a null in them have no value. -/
theorem ofJson_error_iff :
    (∃ failure, ofJson strategy json = .error failure) ↔ Json.Part .null json := by
  constructor
  · rintro ⟨failure, refused⟩
    by_contra nullFree
    obtain ⟨value, converts⟩ := exists_converts strategy nullFree
    rw [converts.ofJson] at refused
    cases refused
  · intro hasNull
    obtain ⟨place, first⟩ := Json.exists_firstNull hasNull
    exact ⟨_, ofJson_firstNull strategy first⟩

/-- There is no other failure than that a null has no value. -/
theorem unsupportedNull_of_ofJson {failure : Failure}
    (refused : ofJson strategy json = .error failure) :
    ∃ path, failure = .unsupportedNull path := by
  obtain ⟨place, first⟩ := Json.exists_firstNull (ofJson_error_iff.mp ⟨failure, refused⟩)
  rw [ofJson_firstNull strategy first] at refused
  cases refused
  exact ⟨_, rfl⟩

/-! ### The value -/

/-- The value is of the kind of the document.  A scalar is taken over, a whole number as an integer
if it fits, and a container holds the values of what there is in the document: one for each item,
and of the members of each class the last one. -/
inductive MadeOf (strategy : Strategy) : Json → Value → Prop
  | boolean (truth : Bool) : MadeOf strategy (.boolean truth) (.boolean truth)
  | whole (number : Int) : MadeOf strategy (.integer number) (ofWhole number)
  | real (number : Binary64) : MadeOf strategy (.real number) (.real number)
  | text (content : String) : MadeOf strategy (.string content) (.text content)
  | sequence {items : List Json} {values : List Value}
      (each : List.Forall₂ (fun item value => ofJson strategy item = .ok value) items values) :
      MadeOf strategy (.array items) (.sequence values)
  | map {members : List (String × Json)} {table : Table Value}
      (filedBy : table.strategy = strategy)
      (classes : table.size =
        (members.map fun member => strategy.keyClass member.1).toFinset.card)
      (each : ∀ key, Option.Rel (fun member value => ofJson strategy member.2 = .ok value)
        (Table.lastFiled strategy members key) (table.get? key)) :
      MadeOf strategy (.object members) (.map table)

/-- The table of an object has the value of the last member of each class. -/
theorem madeOf_object {members : List (String × Json)} {pairs : List (String × Value)}
    (related : Json.MembersRelated (Converts strategy) members pairs) :
    MadeOf strategy (.object members) (.map (Table.ofList strategy pairs)) := by
  refine .map (Table.ofList_strategy strategy pairs) ?classes ?each
  case classes =>
    have names := congrArg (List.map strategy.keyClass) related.names
    rw [List.map_map, List.map_map] at names
    rw [Table.size_ofList]
    exact congrArg (fun classes => classes.toFinset.card) names.symm
  case each =>
    intro key
    have last := related.lastFiled strategy key
    rw [Table.get?_ofList]
    generalize Table.lastFiled strategy members key = member at last ⊢
    generalize Table.lastFiled strategy pairs key = pair at last ⊢
    cases last with
    | none => exact .none
    | some same => exact .some same.2.ofJson

/-- A document has no other value than the one that is known. -/
theorem Converts.madeOf_known {known : Value} (converts : Converts strategy json value)
    (convertsKnown : Converts strategy json known) (made : MadeOf strategy json known) :
    MadeOf strategy json value := by
  rwa [converts.unique convertsKnown]

/-- The value of a document is made of the values of what the document holds. -/
theorem Converts.madeOf (converts : Converts strategy json value) :
    MadeOf strategy json value := by
  cases json with
  | array items =>
      obtain ⟨values, rfl, each⟩ := converts_array converts
      exact .sequence (each.imp fun _ _ convertsItem => convertsItem.ofJson)
  | object members =>
      obtain ⟨pairs, rfl, related⟩ := converts_object converts
      exact madeOf_object related
  | null => exact absurd converts.nullFree Json.not_nullFree_null
  | boolean truth => exact converts.madeOf_known (fun _ => by rw [convert]) (.boolean truth)
  | integer number => exact converts.madeOf_known (fun _ => by rw [convert]) (.whole number)
  | real number => exact converts.madeOf_known (fun _ => by rw [convert]) (.real number)
  | string content => exact converts.madeOf_known (fun _ => by rw [convert]) (.text content)

/-- A document has no value exactly if there is a null in it at some depth, be it in a member that
another one would replace; that is then the failure.  Otherwise there is no box in the value, all
tables in it have the strategy that was asked for, and each part of the document has a value of
its own, which is made of the values of the items and members of that part: as many items in the
same order, and under each key the value of the last member of its class, with one entry for each
class. -/
theorem ofJson_exactly (strategy : Strategy) (json : Json) :
    ((∃ failure, ofJson strategy json = .error failure) ↔ Json.Part .null json) ∧
      (∀ failure, ofJson strategy json = .error failure →
        ∃ path, failure = .unsupportedNull path) ∧
      ∀ value, ofJson strategy json = .ok value →
        (value.Everywhere fun part => part.kind ≠ .boxed) ∧
        value.FiledBy strategy ∧
        MadeOf strategy json value ∧
        ∀ source, Json.Part source json →
          ∃ found, ofJson strategy source = .ok found ∧ MadeOf strategy source found := by
  refine ⟨ofJson_error_iff, fun _ refused => unsupportedNull_of_ofJson refused, ?_⟩
  intro value converted
  have converts := converts_of_ofJson converted
  refine ⟨converts.boxFree, converts.filedBy, converts.madeOf, ?_⟩
  intro source isPart
  have nullFree : source.NullFree := fun isNull => converts.nullFree (isNull.trans isPart)
  obtain ⟨found, convertsSource⟩ := exists_converts strategy nullFree
  exact ⟨found, convertsSource.ofJson, convertsSource.madeOf⟩

end ConfTree.Value
