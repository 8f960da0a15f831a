/-
Module: ConfTree.Proofs.Manifest.Field
Purpose: When a field of a manifest is read, and what is read from it.
Main exports:
  Manifest.Has, Manifest.MayHave, Manifest.ObjectIs, Manifest.ArrayIs, Manifest.Worded,
  Manifest.LawfulChoice
-/
import ConfTree.Manifest.Json
import ConfTree.Manifest.Review
import ConfTree.Proofs.Success

namespace ConfTree.Manifest

/-!
The reader of a manifest stops at the first field that it cannot take.  Each of its
steps is described here by when it succeeds and with what, as a relation between what
stands in the document and what is read.  The relations speak of the document alone, so
together they say which documents there are to accept, not how they are gone through.
-/

/-! ### What stands in a document -/

/-- The object has that value under that name. -/
def Has (fields : Fields) (name : String) (value : Json) : Prop :=
  Json.member? fields name = some value

/-- The object has nothing under that name. -/
def Lacks (fields : Fields) (name : String) : Prop := Json.member? fields name = none

/-- The value is a string of that content. -/
def TextIs (value : Json) (content : String) : Prop := value = .string content

/-- The value is that truth value. -/
def TruthIs (value : Json) (truth : Bool) : Prop := value = .boolean truth

/-- A type whose values have words in the format. -/
class Worded (α : Type) where
  /-- The word that stands for a value. -/
  word : α → String

instance : Worded ConfigurationPolicy where
  word
    | .ignore => "ignore"
    | .optional => "optional"
    | .require => "require"

instance : Worded Scope where
  word
    | .singleton => "singleton"
    | .bundle => "bundle"
    | .prototype => "prototype"

instance : Worded Cardinality where
  word
    | .optional => "0..1"
    | .mandatory => "1..1"
    | .multiple => "0..n"
    | .atLeastOne => "1..n"

instance : Worded ReferencePolicy where
  word
    | .static => "static"
    | .dynamic => "dynamic"

instance : Worded PolicyOption where
  word
    | .reluctant => "reluctant"
    | .greedy => "greedy"

/-- The value is a string with the word for that option. -/
def ChoiceIs {α : Type} [Worded α] (value : Json) (option : α) : Prop :=
  value = .string (Worded.word option)

section Shapes

variable {α : Type}

/-- The value is an object whose members are related to the result. -/
def ObjectIs (members : Fields → α → Prop) (value : Json) (result : α) : Prop :=
  ∃ fields, value = .object fields ∧ members fields result

/-- The value is an array whose items are related to the result. -/
def ArrayIs (items : List Json → α → Prop) (value : Json) (result : α) : Prop :=
  ∃ list, value = .array list ∧ items list result

/-- A member that may be left out, but must be related to the result if it is there. -/
inductive MayHave (fields : Fields) (name : String) (relates : Json → α → Prop) :
    Option α → Prop where
  | absent (lacks : Lacks fields name) : MayHave fields name relates none
  | present {value : Json} {result : α} (has : Has fields name value)
      (related : relates value result) : MayHave fields name relates (some result)

/-- A member that may be left out is related to something unless it is there and is not. -/
theorem exists_mayHave_iff {fields : Fields} {name : String} {relates : Json → α → Prop} :
    (∃ result, MayHave fields name relates result) ↔
      ∀ value, Has fields name value → ∃ result, relates value result := by
  constructor
  · rintro ⟨_, given⟩ value has
    cases given with
    | absent lacks => cases lacks.symm.trans has
    | present hasOther related =>
        cases hasOther.symm.trans has
        exact ⟨_, related⟩
  · intro related
    cases found : Json.member? fields name with
    | none => exact ⟨none, .absent found⟩
    | some value =>
        obtain ⟨result, relates⟩ := related value found
        exact ⟨some result, .present found relates⟩

end Shapes

/-! ### Reading a field -/

section Fields

variable {α : Type} {fields : Fields} {field : String}

theorem required_eq_ok_iff {value : Json} :
    required fields field = .ok value ↔ Has fields field value := by
  rw [required, Has]
  cases Json.member? fields field with
  | none => exact ⟨nofun, nofun⟩
  | some found => simp

theorem text_eq_ok_iff {value : Json} {content : String} :
    text field value = .ok content ↔ TextIs value content := by
  rw [TextIs]
  cases value <;> simp [text]

theorem truth_eq_ok_iff {value : Json} {content : Bool} :
    truth field value = .ok content ↔ TruthIs value content := by
  rw [TruthIs]
  cases value <;> simp [truth]

theorem array_eq_ok_iff {value : Json} {items : List Json} :
    array field value = .ok items ↔ value = .array items := by
  cases value <;> simp [array]

theorem object_eq_ok_iff {expected : String} {value : Json} {members : Fields} :
    object field expected value = .ok members ↔ value = .object members := by
  cases value <;> simp [object]

theorem requiredText_eq_ok_iff {content : String} :
    requiredText fields field = .ok content ↔ Has fields field (.string content) := by
  rw [requiredText, bind_eq_ok_iff]
  simp only [required_eq_ok_iff, text_eq_ok_iff, TextIs, exists_eq_right]

theorem requiredArray_eq_ok_iff {items : List Json} :
    requiredArray fields field = .ok items ↔ Has fields field (.array items) := by
  rw [requiredArray, bind_eq_ok_iff]
  simp only [required_eq_ok_iff, array_eq_ok_iff, exists_eq_right]

/-- A field that may be left out is read if it can be read where it is there. -/
theorem optional_eq_ok_iff {read : Json → Except Defect α} {relates : Json → α → Prop}
    (readsValue : ∀ value result, read value = .ok result ↔ relates value result)
    {result : Option α} :
    optional fields field read = .ok result ↔ MayHave fields field relates result := by
  rw [optional]
  cases found : Json.member? fields field with
  | none =>
      constructor
      · rintro ⟨⟩
        exact .absent found
      · intro given
        cases given with
        | absent => rfl
        | present has => cases found.symm.trans has
  | some value =>
      dsimp only
      rw [map_eq_ok_iff]
      constructor
      · rintro ⟨content, success, rfl⟩
        exact .present found ((readsValue value content).mp success)
      · intro given
        cases given with
        | absent lacks => cases found.symm.trans lacks
        | present has related =>
            cases found.symm.trans has
            exact ⟨_, (readsValue value _).mpr related, rfl⟩

theorem optionalText_eq_ok_iff {result : Option String} :
    optionalText fields field = .ok result ↔ MayHave fields field TextIs result :=
  optional_eq_ok_iff fun _ _ => text_eq_ok_iff

end Fields

/-! ### Choices -/

/-- A choice that is read and written in the words of the format. -/
class LawfulChoice (α : Type) [Choice α] [Named α] [Worded α] : Prop where
  listed_word : ∀ entry ∈ Choice.listed (α := α), entry.1 = Worded.word entry.2
  ofWord?_word : ∀ option : α, Choice.ofWord? (Worded.word option) = some option
  name_eq_word : ∀ option : α, Named.name option = Worded.word option

instance : LawfulChoice ConfigurationPolicy where
  listed_word := by simp [Choice.listed, Worded.word]
  ofWord?_word option := by cases option <;> rfl
  name_eq_word option := by cases option <;> rfl

instance : LawfulChoice Scope where
  listed_word := by simp [Choice.listed, Worded.word]
  ofWord?_word option := by cases option <;> rfl
  name_eq_word option := by cases option <;> rfl

instance : LawfulChoice Cardinality where
  listed_word := by simp [Choice.listed, Worded.word]
  ofWord?_word option := by cases option <;> rfl
  name_eq_word option := by cases option <;> rfl

instance : LawfulChoice ReferencePolicy where
  listed_word := by simp [Choice.listed, Worded.word]
  ofWord?_word option := by cases option <;> rfl
  name_eq_word option := by cases option <;> rfl

instance : LawfulChoice PolicyOption where
  listed_word := by simp [Choice.listed, Worded.word]
  ofWord?_word option := by cases option <;> rfl
  name_eq_word option := by cases option <;> rfl

section Choices

variable {α : Type} [Choice α] [Named α] [Worded α] [LawfulChoice α] {fields : Fields}
  {field : String}

/-- A word is read as the one option that it stands for. -/
theorem ofWord?_eq_some_iff {word : String} {option : α} :
    Choice.ofWord? word = some option ↔ word = Worded.word option := by
  constructor
  · intro found
    obtain ⟨entry, finds, rfl⟩ := Option.map_eq_some_iff.mp found
    have same := List.find?_some finds
    rw [← beq_iff_eq.mp same]
    exact LawfulChoice.listed_word entry (List.mem_of_find?_eq_some finds)
  · rintro rfl
    exact LawfulChoice.ofWord?_word option

theorem choose_eq_ok_iff {word : String} {option : α} :
    choose field word = .ok option ↔ word = Worded.word option := by
  rw [← ofWord?_eq_some_iff, choose]
  cases Choice.ofWord? (α := α) word <;> simp

theorem requiredChoice_eq_ok_iff {option : α} :
    requiredChoice fields field = .ok option ↔
      Has fields field (.string (Worded.word option)) := by
  rw [requiredChoice, bind_eq_ok_iff]
  simp only [requiredText_eq_ok_iff, choose_eq_ok_iff, exists_eq_right]

/-- The listed words are those that stand for an option. -/
theorem exists_choiceIs_iff {words : List String} (listed : words = Choice.words α)
    {value : Json} :
    (∃ option : α, ChoiceIs value option) ↔ ∃ word ∈ words, value = .string word := by
  subst listed
  constructor
  · rintro ⟨option, rfl⟩
    obtain ⟨entry, found, rfl⟩ := Option.map_eq_some_iff.mp (LawfulChoice.ofWord?_word option)
    have isListed := List.mem_of_find?_eq_some found
    refine ⟨entry.1, List.mem_map_of_mem isListed, ?_⟩
    rw [LawfulChoice.listed_word entry isListed]
  · rintro ⟨word, isWord, rfl⟩
    obtain ⟨entry, isListed, rfl⟩ := List.mem_map.mp isWord
    exact ⟨entry.2, congrArg Json.string (LawfulChoice.listed_word entry isListed)⟩

@[simp] theorem name_eq_word (option : α) : Named.name option = Worded.word option :=
  LawfulChoice.name_eq_word option

end Choices

end ConfTree.Manifest
