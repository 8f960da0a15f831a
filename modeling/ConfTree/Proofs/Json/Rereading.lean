/-
Module: ConfTree.Proofs.Json.Rereading
Purpose: What the reader makes of a written document depends on the document alone.
Main exports:
  Json.Literal.number, Json.reread, Json.reads_written, Json.read_written_eq_ok_iff,
  Json.read_written_of_error
-/
import ConfTree.Proofs.Json.Container
import ConfTree.Proofs.Json.Quoted
import ConfTree.Proofs.Json.RealText

namespace ConfTree.Json

/-!
A document does not always read back as itself.  It may be nested too deeply, a real may be
rounded anew or leave the range, one that is not finite comes back as null, a whole number
beyond the reader's range comes back as a real, and members of the same name are merged.  All
of that is settled by the document and by how many containers the reader may open: `reread` is
what comes of it, and no choice of blanks has a part in it.
-/

/-- The number for which the reader takes a literal. -/
def Literal.number (literal : Literal) : Except Cause Json :=
  match literal.value with
  | .ok number => .ok number
  | .error _ => .error .numberOutOfRange

/-- What a reader that may open that many containers makes of the text of a document. -/
def reread : Nat → Json → Except Cause Json
  | _, .null => .ok .null
  | _, .boolean value => .ok (.boolean value)
  | _, .integer value => (Literal.ofInt value).number
  | _, .real value => if value.isFinite then (Literal.ofReal value).number else .ok .null
  | _, .string value => .ok (.string value)
  | 0, .array _ => .error .tooDeep
  | 0, .object _ => .error .tooDeep
  | limit + 1, .array items => (items.mapM fun item => reread limit item).map .array
  | limit + 1, .object members =>
      (members.mapM fun member =>
        (reread limit member.2).map fun value => (member.1, value)).map fun read =>
          .object (ofMembers read)

/-! ### Scalars -/

/-- A character that is neither a blank nor an opening bracket begins a scalar. -/
theorem readValue_scalar {c : Char} (notBlank : isBlank c = false) (notSquare : c ≠ '[')
    (notCurly : c ≠ '\x7b') (limit : Nat) (rest : List Char) :
    readValue limit (c :: rest) = readScalar (c :: rest) := by
  rw [readValue.eq_def]
  simp only [skipBlanks_cons notBlank]
  split <;> simp_all

/-- Whether a scalar may begin with that character. -/
def beginsScalar (c : Char) : Bool := !isBlank c && c ≠ '[' && c ≠ '\x7b' && c ≠ ']'

theorem beginsScalar_iff {c : Char} :
    beginsScalar c ↔ isBlank c = false ∧ c ≠ '[' ∧ c ≠ '\x7b' ∧ c ≠ ']' := by
  simp [beginsScalar, and_assoc]

theorem beginsScalar_of_beginsNumber {c : Char} (begins : beginsNumber c) : beginsScalar c := by
  cases scalar : beginsScalar c with
  | true => rfl
  | false =>
      have among : c = ' ' ∨ c = '\n' ∨ c = '\t' ∨ c = '\r' ∨ c = '[' ∨ c = '\x7b' ∨ c = ']' := by
        by_contra other
        simp_all [beginsScalar, isBlank]
      rcases among with rfl | rfl | rfl | rfl | rfl | rfl | rfl <;> cases begins

/-- A scalar reads the same wherever it stands. -/
theorem reads_scalar {first : Char} (begins : beginsScalar first) {others : List Char}
    {expected : Except Cause Json} (limit : Nat)
    (reads : ∀ rest, Delimited rest → outcome (readScalar (first :: others ++ rest)) =
      expected.map fun result => (result, rest)) :
    Reads (readValue limit) ']' (first :: others) expected := by
  obtain ⟨notBlank, notSquare, notCurly, notClose⟩ := beginsScalar_iff.mp begins
  refine ⟨⟨first, others, rfl, notBlank, notClose⟩, ?_⟩
  intro rest delimited
  have scalar := readValue_scalar notBlank notSquare notCurly limit (others ++ rest)
  rw [List.cons_append, scalar]
  exact reads rest delimited

theorem readScalar_number {c : Char} (begins : beginsNumber c) (rest : List Char) :
    readScalar (c :: rest) = Literal.read (c :: rest) := by
  have number : c = '-' ∨ c.isDigit := by simpa [beginsNumber] using begins
  rw [readScalar, if_pos number]
  -- No other scalar begins with a digit or a sign.
  all_goals
    rintro rfl
    cases begins

/-- A literal reads as its number, however it is spelled. -/
theorem reads_literal {text : List Char} {literal : Literal} (spells : Literal.Spells text literal)
    (limit : Nat) : Reads (readValue limit) ']' text literal.number := by
  obtain ⟨first, others, rfl, begins⟩ := spells.begins
  apply reads_scalar (beginsScalar_of_beginsNumber begins)
  intro rest delimited
  have scanned := Literal.scan_spelled spells delimited
  rw [List.cons_append, readScalar_number begins, ← List.cons_append, Literal.read, scanned,
    Literal.number]
  simp only [bind, Except.bind]
  cases literal.value <;> rfl

theorem reads_null (limit : Nat) :
    Reads (readValue limit) ']' ['n', 'u', 'l', 'l'] (.ok .null) :=
  reads_scalar (by decide) limit fun _ _ => rfl

theorem reads_boolean (limit : Nat) (value : Bool) :
    Reads (readValue limit) ']' (booleanText value) (.ok (.boolean value)) := by
  cases value with
  | true => exact reads_scalar (by decide) limit fun _ _ => rfl
  | false => exact reads_scalar (by decide) limit fun _ _ => rfl

theorem reads_string (limit : Nat) (value : String) :
    Reads (readValue limit) ']' (Quoted.write value) (.ok (.string value)) := by
  rw [Quoted.write]
  apply reads_scalar (by decide)
  intro rest _
  rw [List.cons_append, List.append_assoc, List.singleton_append, readScalar, Quoted.read_write]
  rfl

/-! ### Members -/

theorem readValue_blanks {blanks : List Char} (blank : ∀ c ∈ blanks, isBlank c)
    (limit : Nat) (text : List Char) :
    readValue limit (blanks ++ text) = readValue limit text := by
  rw [readValue.eq_def, readValue.eq_def]
  simp only [skipBlanks_append blank]

theorem readColon_cons (rest : List Char) : readColon (':' :: rest) = .ok rest := by
  simp [readColon, skipBlanks_cons (by decide : isBlank ':' = false)]

/-- A member reads as its value does. -/
theorem reads_member (layout : Layout) (name : String) {limit : Nat} {text : List Char}
    {expected : Except Cause Json} (value : Reads (readValue limit) ']' text expected) :
    Reads (readMember (readValue limit)) '\x7d' (layout.memberText name text)
      (expected.map fun value => (name, value)) := by
  refine ⟨⟨'"', _, rfl, by decide, by decide⟩, ?_⟩
  intro rest delimited
  have start : layout.memberText name text ++ rest =
      '"' :: (name.toList.flatMap Quoted.escape ++
        '"' :: ':' :: (layout.space ++ (text ++ rest))) := by
    simp [Layout.memberText, Quoted.write]
  have read : readMember (readValue limit) (layout.memberText name text ++ rest) =
      readValue limit (text ++ rest) >>= fun found => .ok ((name, found.1), found.2) := by
    rw [start, readMember, Quoted.read_write, ← readValue_blanks layout.space_blank]
    simp only [bind, Except.bind, readColon_cons]
    rfl
  rw [read, outcome_bind, value.reads rest delimited]
  cases expected <;> rfl

/-! ### Documents -/

theorem readValue_array (limit : Nat) (rest : List Char) :
    readValue (limit + 1) ('[' :: rest) =
      readItems squareBrackets (readValue limit) rest >>= fun found =>
        .ok (.array found.1, found.2) := rfl

theorem readValue_object (limit : Nat) (rest : List Char) :
    readValue (limit + 1) ('\x7b' :: rest) =
      readItems curlyBrackets (readMember (readValue limit)) rest >>= fun found =>
        .ok (.object (ofMembers found.1), found.2) := rfl

/-- From any form of the text of a document the reader gets what comes of the document. -/
theorem reads_written (layout : Layout) (limit level : Nat) (json : Json) :
    Reads (readValue limit) ']' (layout.written level json) (json.reread limit) := by
  fun_induction reread limit json generalizing level with
  | case1 limit =>
      rw [Layout.written]
      exact reads_null limit
  | case2 limit value =>
      rw [Layout.written]
      exact reads_boolean limit value
  | case3 limit value =>
      rw [Layout.written, ← Literal.written_ofInt]
      exact reads_literal (Literal.spells_written (Literal.proper_ofInt value)) limit
  | case4 limit value finite =>
      rw [Layout.written, realText, if_pos finite, ← Literal.written_ofReal]
      exact reads_literal (Literal.spells_written (Literal.proper_ofReal value)) limit
  | case5 limit value infinite =>
      rw [Layout.written, realText, if_neg infinite]
      exact reads_null limit
  | case6 limit value =>
      rw [Layout.written]
      exact reads_string limit value
  | case7 items =>
      rw [Layout.written]
      exact ⟨⟨'[', _, rfl, by decide, by decide⟩, fun _ _ => rfl⟩
  | case8 members =>
      rw [Layout.written]
      exact ⟨⟨'\x7b', _, rfl, by decide, by decide⟩, fun _ _ => rfl⟩
  | case9 limit items ih =>
      rw [Layout.written]
      refine ⟨⟨'[', _, rfl, by decide, by decide⟩, ?_⟩
      intro rest _
      rw [List.cons_append, readValue_array, outcome_bind,
        outcome_readItems squareBrackets_closing (layout.gap_blank (level + 1))
          (layout.gap_blank level) (fun item _ => ih item (level + 1)) rest]
      cases items.mapM (fun item => reread limit item) <;> rfl
  | case10 limit members ih =>
      rw [Layout.written]
      refine ⟨⟨'\x7b', _, rfl, by decide, by decide⟩, ?_⟩
      intro rest _
      rw [List.cons_append, readValue_object, outcome_bind,
        outcome_readItems curlyBrackets_closing (layout.gap_blank (level + 1))
          (layout.gap_blank level)
          (fun member _ => reads_member layout member.1 (ih member (level + 1))) rest]
      cases members.mapM (fun member =>
        (reread limit member.2).map fun value => (member.1, value)) <;> rfl

/-- What is made of a text wherever it stands is made of it where nothing else stands, but for the
place of a fault. -/
theorem read_outcome {text : List Char} {expected : Except Cause Json}
    (reads : Reads (readValue nestingLimit) ']' text expected) :
    (read (String.ofList text)).mapError (·.cause) = expected := by
  have alone := reads.reads [] Delimited.nil
  rw [List.append_nil] at alone
  rw [read, readWhole, String.toList_ofList]
  cases reading : readValue nestingLimit text with
  | error fault =>
      rw [reading] at alone
      cases expected with
      | error cause =>
          cases alone
          rfl
      | ok result => cases alone
  | ok found =>
      rw [reading] at alone
      cases expected with
      | error cause => cases alone
      | ok result =>
          cases alone
          rfl

/-- From any form of a document comes what comes of the document, but for the place of a
fault. -/
theorem read_written_outcome (layout : Layout) (json : Json) :
    (read (String.ofList (layout.written 0 json))).mapError (·.cause) =
      json.reread nestingLimit :=
  read_outcome (reads_written layout nestingLimit 0 json)

/-- From a spelling of a literal comes the number that the literal stands for. -/
theorem read_spelled_eq_ok_iff {text : List Char} {literal : Literal}
    (spells : Literal.Spells text literal) {result : Json} :
    read (String.ofList text) = .ok result ↔ literal.value = .ok result := by
  have outcome := read_outcome (reads_literal spells nestingLimit)
  rw [Literal.number] at outcome
  cases reading : read (String.ofList text) <;> cases value : literal.value <;>
    simp_all [Except.mapError]

theorem read_written_eq_ok_iff (layout : Layout) {json result : Json} :
    read (String.ofList (layout.written 0 json)) = .ok result ↔
      json.reread nestingLimit = .ok result := by
  rw [← read_written_outcome layout]
  cases read (String.ofList (layout.written 0 json)) <;> simp [Except.mapError]

theorem read_written_of_error (layout : Layout) {json : Json} {cause : Cause}
    (refused : json.reread nestingLimit = .error cause) :
    ∃ line column, read (String.ofList (layout.written 0 json)) = .error ⟨cause, line, column⟩ := by
  have outcome := read_written_outcome layout json
  rw [refused] at outcome
  cases reading : read (String.ofList (layout.written 0 json)) with
  | error error =>
      rw [reading] at outcome
      cases outcome
      exact ⟨error.line, error.column, rfl⟩
  | ok result =>
      rw [reading] at outcome
      cases outcome

end ConfTree.Json
