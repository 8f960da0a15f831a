/-
Module: ConfTree.Proofs.Json.ObjectText
Purpose: The texts of objects, whatever their blanks and the spelling of their names, and
  what is read from them.
Main exports:
  Json.MemberText, Json.ObjectText, Json.Holds, Json.ObjectText.yields,
  Json.ObjectText.read_or_too_deep, Json.ObjectText.read_shallow
-/
import ConfTree.Proofs.Json.Locality

namespace ConfTree.Json

/-!
The text of an object is that of its members with commas between them.  A member is a
name between quotes, a colon and the text of a value, and blanks may stand around each of
these.  Names may be repeated.  The text of a value is any text that is a document on its
own, and the object is read as if each value had been read on its own.
-/

theorem blank_nil : ∀ c ∈ ([] : List Char), isBlank c := List.forall_mem_nil _

/-- A member of an object as it stands in a text. -/
structure MemberText where
  name : String
  /-- The name as it is spelled, up to its closing quote. -/
  quoted : List Char
  /-- What stands in front of the opening quote. -/
  before : List Char
  /-- What stands in front of the colon. -/
  between : List Char
  /-- All that stands behind the colon. -/
  value : List Char
  quoted_reads : Quoted.read quoted = .ok (name, [])
  before_blank : ∀ c ∈ before, isBlank c
  between_blank : ∀ c ∈ between, isBlank c

/-- An object as it stands in a text. -/
structure ObjectText where
  /-- What stands in front of the opening bracket. -/
  lead : List Char
  /-- What stands behind the opening bracket. -/
  inside : List Char
  members : List MemberText
  /-- What stands behind the closing bracket. -/
  trail : List Char
  lead_blank : ∀ c ∈ lead, isBlank c
  inside_blank : ∀ c ∈ inside, isBlank c
  trail_blank : ∀ c ∈ trail, isBlank c

/-- The text of a member behind its opening quote. -/
def MemberText.body (member : MemberText) : List Char :=
  member.quoted ++ member.between ++ ':' :: member.value

/-- The text of a member. -/
def MemberText.text (member : MemberText) : List Char := member.before ++ '"' :: member.body

/-- The text of an object behind its opening bracket. -/
def ObjectText.body (object : ObjectText) : List Char :=
  object.inside ++ itemsText curlyBrackets.close [] [] (object.members.map MemberText.text) ++
    object.trail

/-- The text of an object. -/
def ObjectText.text (object : ObjectText) : String :=
  String.ofList (object.lead ++ '\x7b' :: object.body)

/-- Within that limit the text is that of the document, but for blanks behind it. -/
def Holds (limit : Nat) (text : List Char) (json : Json) : Prop :=
  ∃ behind, (∀ c ∈ behind, isBlank c) ∧ readValue limit text = .ok (json, behind)

/-! ### Whole texts -/

theorem skipBlanks_eq_nil_iff {text : List Char} :
    skipBlanks text = [] ↔ ∀ c ∈ text, isBlank c := by
  rw [skipBlanks, List.dropWhile_eq_nil_iff]

theorem holds_of_read {text : List Char} {json : Json}
    (reads : read (String.ofList text) = .ok json) : Holds nestingLimit text json := by
  rw [read, readWhole, String.toList_ofList] at reads
  cases reading : readValue nestingLimit text with
  | error fault =>
      rw [reading] at reads
      cases reads
  | ok found =>
      obtain ⟨document, behind⟩ := found
      rw [reading] at reads
      cases rest : skipBlanks behind with
      | nil =>
          simp only [rest] at reads
          cases reads
          exact ⟨behind, skipBlanks_eq_nil_iff.mp rest, reading⟩
      | cons c others =>
          simp only [rest] at reads
          cases reads

theorem read_of_yields {mayRefuse : Prop} {text behind : List Char} {json : Json}
    (blank : ∀ c ∈ behind, isBlank c)
    (yields : Yields mayRefuse (readValue nestingLimit text) json behind) :
    read (String.ofList text) = .ok json ∨
      mayRefuse ∧ ∃ line column, read (String.ofList text) = .error ⟨.tooDeep, line, column⟩ := by
  rw [read, readWhole, String.toList_ofList]
  rcases yields with reads | ⟨may, refused⟩
  · have nothing := skipBlanks_eq_nil_iff.mpr blank
    left
    rw [reads]
    simp only [nothing]
  · cases reading : readValue nestingLimit text with
    | ok found => simp [reading] at refused
    | error fault =>
        have cause : fault.cause = .tooDeep := by simpa [reading] using refused
        exact .inr ⟨may, _, _, by rw [← cause]; rfl⟩

/-! ### Members -/

variable {limit other : Nat}

/-- Behind the text of a member the loop goes on with a comma or the closing bracket. -/
theorem skipBlanks_moreText {behind : List Char} (blank : ∀ c ∈ behind, isBlank c)
    (texts : List (List Char)) (rest : List Char) :
    skipBlanks (behind ++ (moreText curlyBrackets.close [] [] texts ++ rest)) =
      moreText curlyBrackets.close [] [] texts ++ rest := by
  rw [skipBlanks_append blank]
  cases texts with
  | nil => exact skipBlanks_cons curlyBrackets_closing.notBlank rest
  | cons text others => exact skipBlanks_cons (by decide) _

theorem skipBlanks_memberText (member : MemberText) (rest : List Char) :
    skipBlanks (member.text ++ rest) = '"' :: (member.body ++ rest) := by
  rw [MemberText.text, List.append_assoc, skipBlanks_append member.before_blank,
    List.cons_append, skipBlanks_cons (by decide)]

/-- A member is read in front of what may follow it. -/
theorem yields_member {member : MemberText} {json : Json} {behind : List Char}
    (reads : readValue limit member.value = .ok (json, behind)) {rest : List Char}
    (delimited : Delimited rest) :
    Yields (other < limit) (readMember (readValue other) ('"' :: (member.body ++ rest)))
      (member.name, json) (behind ++ rest) := by
  have name : Quoted.read (member.body ++ rest) =
      .ok (member.name, member.between ++ ':' :: (member.value ++ rest)) := by
    have whole : member.body ++ rest =
        member.quoted ++ (member.between ++ ':' :: (member.value ++ rest)) := by
      simp [MemberText.body]
    rw [whole]
    exact Quoted.read_append member.quoted_reads _
  have colon : readColon (member.between ++ ':' :: (member.value ++ rest)) =
      .ok (member.value ++ rest) := by
    rw [readColon, skipBlanks_append member.between_blank, skipBlanks_cons (by decide)]
    rfl
  rw [readMember_quote name colon]
  apply (extends_readValue limit other reads rest fun _ => delimited).bind
  exact .inl rfl

/-- The member texts hold these members. -/
def MembersHold (limit : Nat) : List MemberText → List (String × Json) → Prop :=
  List.Forall₂ fun text member => text.name = member.1 ∧ Holds limit text.value member.2

theorem yields_moreMembers {texts : List MemberText} {members : List (String × Json)}
    (hold : MembersHold limit texts members) {behind : List Char}
    (blank : ∀ c ∈ behind, isBlank c) {bound : Nat} (enough : members.length ≤ bound)
    (rest : List Char) :
    Yields (other < limit)
      (readMoreItems curlyBrackets (readMember (readValue other)) bound
        (behind ++ (moreText curlyBrackets.close [] [] (texts.map MemberText.text) ++ rest)))
      members rest := by
  induction hold generalizing behind bound with
  | nil =>
      have start := skipBlanks_moreText blank [] rest
      exact .inl (readMoreItems_close start bound)
  | @cons text member texts members first following ih =>
      obtain ⟨name, json⟩ := member
      obtain ⟨rfl, after, blankAfter, reads⟩ := first
      obtain ⟨bound, rfl⟩ : ∃ smaller, bound = smaller + 1 :=
        Nat.exists_eq_succ_of_ne_zero (Nat.ne_zero_of_lt enough)
      have start := skipBlanks_moreText blank ((text :: texts).map MemberText.text) rest
      have comma : moreText curlyBrackets.close [] [] ((text :: texts).map MemberText.text) ++
          rest = ',' :: (text.text ++
            (moreText curlyBrackets.close [] [] (texts.map MemberText.text) ++ rest)) := by
        simp [moreText]
      rw [comma] at start ⊢
      rw [readMoreItems_comma curlyBrackets_closing start (skipBlanks_memberText text _)
        (by decide)]
      have delimited : Delimited
          (moreText curlyBrackets.close [] [] (texts.map MemberText.text) ++ rest) :=
        delimited_moreText curlyBrackets_closing blank_nil _ rest
      apply (yields_member reads delimited).bind
      apply (ih blankAfter (Nat.le_of_succ_le_succ enough)).bind
      exact .inl rfl

/-! ### Objects -/

theorem yields_members {texts : List MemberText} {members : List (String × Json)}
    (hold : MembersHold limit texts members) {inside : List Char}
    (blank : ∀ c ∈ inside, isBlank c) (rest : List Char) :
    Yields (other < limit)
      (readItems curlyBrackets (readMember (readValue other))
        (inside ++ (itemsText curlyBrackets.close [] [] (texts.map MemberText.text) ++ rest)))
      members rest := by
  cases hold with
  | nil =>
      have start : skipBlanks (inside ++ (itemsText curlyBrackets.close [] [] [] ++ rest)) =
          curlyBrackets.close :: rest := by
        rw [skipBlanks_append blank]
        exact skipBlanks_cons curlyBrackets_closing.notBlank rest
      exact .inl (readItems_close start)
  | @cons text member texts members first following =>
      obtain ⟨name, json⟩ := member
      obtain ⟨rfl, after, blankAfter, reads⟩ := first
      have start : skipBlanks (inside ++
          (itemsText curlyBrackets.close [] [] ((text :: texts).map MemberText.text) ++ rest)) =
            '"' :: (text.body ++
              (moreText curlyBrackets.close [] [] (texts.map MemberText.text) ++ rest)) := by
        rw [skipBlanks_append blank, List.map_cons, itemsText, List.nil_append,
          List.append_assoc, skipBlanks_memberText]
      have delimited : Delimited
          (moreText curlyBrackets.close [] [] (texts.map MemberText.text) ++ rest) :=
        delimited_moreText curlyBrackets_closing blank_nil _ rest
      have enough : members.length ≤ (after ++
          (moreText curlyBrackets.close [] [] (texts.map MemberText.text) ++ rest)).length := by
        have commas := length_le_moreText curlyBrackets.close [] [] (texts.map MemberText.text)
        rw [List.length_map, following.length_eq] at commas
        rw [List.length_append, List.length_append]
        omega
      rw [readItems_first start (by decide)]
      apply (yields_member reads delimited).bind
      apply (yields_moreMembers following blankAfter enough rest).bind
      exact .inl rfl

namespace ObjectText

/-- An object is read member by member, each as its text would be on its own. -/
theorem yields (object : ObjectText) {members : List (String × Json)}
    (hold : MembersHold limit object.members members) :
    Yields (other < limit) (readValue (other + 1) (object.lead ++ '\x7b' :: object.body))
      (.object (ofMembers members)) object.trail := by
  have body : object.body = object.inside ++
      (itemsText curlyBrackets.close [] [] (object.members.map MemberText.text) ++
        object.trail) := by
    rw [ObjectText.body, List.append_assoc]
  rw [readValue_blanks object.lead_blank, readValue_object, body]
  apply (yields_members hold object.inside_blank object.trail).bind
  exact .inl rfl

/-- If its values are documents on their own, the text of an object is the object of these
documents, or it is refused for its depth. -/
theorem read_or_too_deep (object : ObjectText) {members : List (String × Json)}
    (hold : MembersHold nestingLimit object.members members) :
    read object.text = .ok (.object (ofMembers members)) ∨
      ∃ line column, read object.text = .error ⟨.tooDeep, line, column⟩ := by
  have yields : Yields (126 < nestingLimit)
      (readValue nestingLimit (object.lead ++ '\x7b' :: object.body))
      (.object (ofMembers members)) object.trail := object.yields hold
  rcases read_of_yields object.trail_blank yields with reads | ⟨_, refused⟩
  · exact .inl reads
  · exact .inr refused

/-- If its values leave room for one container more, the text of an object is not refused. -/
theorem read_shallow (object : ObjectText) {members : List (String × Json)}
    (hold : MembersHold 126 object.members members) :
    read object.text = .ok (.object (ofMembers members)) := by
  have yields : Yields (126 < 126)
      (readValue nestingLimit (object.lead ++ '\x7b' :: object.body))
      (.object (ofMembers members)) object.trail := object.yields hold
  rcases read_of_yields object.trail_blank yields with reads | ⟨lower, _⟩
  · exact reads
  · exact absurd lower (Nat.lt_irrefl 126)

end ObjectText

end ConfTree.Json
