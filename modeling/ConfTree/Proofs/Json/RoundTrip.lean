/-
Module: ConfTree.Proofs.Json.RoundTrip
Purpose: A written document reads back as itself, as far as it is not nested too deeply.
Main exports:
  Json.depth, Json.Legible, Json.reread_of_legible, Json.read_written, Json.read_too_deep
-/
import ConfTree.Proofs.Json.Evaluation
import ConfTree.Proofs.Json.Rereading

namespace ConfTree.Json

/-!
A document without reals, with whole numbers in the range of the reader and with no
member name given twice is legible: from either of its forms the reader gets it back.
The one condition left is on its depth, and it is sharp.  The reader opens a container
before it looks at what is inside, so a document that is too deep is refused with that
cause wherever in it the depth is reached.
-/

/-! ### Depth -/

/-- The greatest of some depths, zero if there are none. -/
def deepest (depths : List Nat) : Nat := depths.foldr max 0

theorem deepest_le_iff {depths : List Nat} {limit : Nat} :
    deepest depths ≤ limit ↔ ∀ depth ∈ depths, depth ≤ limit := by
  induction depths with
  | nil => simp [deepest]
  | cons depth others ih =>
      have step : deepest (depth :: others) = max depth (deepest others) := rfl
      rw [step, Nat.max_le, ih, List.forall_mem_cons]

theorem le_deepest {depths : List Nat} {depth : Nat} (member : depth ∈ depths) :
    depth ≤ deepest depths :=
  deepest_le_iff.mp (Nat.le_refl _) depth member

/-- How many containers stand around the innermost part of a document, at most. -/
def depth : Json → Nat
  | .array items => 1 + deepest (items.map fun item => item.depth)
  | .object members => 1 + deepest (members.map fun member => member.2.depth)
  | _ => 0
termination_by json => sizeOf json
decreasing_by
  · exact sizeOf_item_lt ‹_›
  · exact sizeOf_member_lt ‹_›

/-- A document that a reader gets back as it was written, if it is not too deep. -/
inductive Legible : Json → Prop
  | null : Legible .null
  | boolean (value : Bool) : Legible (.boolean value)
  | integer {value : Int} (least : -Literal.negativeLimit ≤ value)
      (greatest : value < Literal.significandLimit) : Legible (.integer value)
  | string (value : String) : Legible (.string value)
  | array {items : List Json} (legible : ∀ item ∈ items, Legible item) :
      Legible (.array items)
  | object {members : List (String × Json)} (distinct : (members.map (·.1)).Nodup)
      (legible : ∀ member ∈ members, Legible member.2) : Legible (.object members)

/-- What a reader that may open that many containers makes of a legible document. -/
def within (limit : Nat) (json : Json) : Except Cause Json :=
  if json.depth ≤ limit then .ok json else .error .tooDeep

/-- If each item is taken as it is or refused for one and the same cause, so are all items
together. -/
theorem mapM_guarded {α : Type} {accepts : α → Prop} [DecidablePred accepts]
    {read : α → Except Cause α} {cause : Cause} {items : List α}
    (each : ∀ item ∈ items, read item = if accepts item then .ok item else .error cause) :
    items.mapM read =
      if ∀ item ∈ items, accepts item then .ok items else .error cause := by
  induction items with
  | nil => simp; rfl
  | cons item others ih =>
      rw [List.mapM_cons, each item List.mem_cons_self,
        ih fun other member => each other (List.mem_cons_of_mem item member)]
      simp only [List.forall_mem_cons]
      by_cases first : accepts item
      · by_cases following : ∀ other ∈ others, accepts other
        · simp only [first, if_true, if_pos following, true_and]; rfl
        · simp only [first, if_true, if_neg following, true_and]; rfl
      · simp only [first, if_false, false_and]; rfl

/-! ### Members -/

theorem setMember_of_absent {members : List (String × Json)} {name : String}
    (absent : name ∉ members.map (·.1)) (value : Json) :
    setMember members name value = members ++ [(name, value)] := by
  rw [setMember, if_neg]
  simpa using absent

/-- Members of different names are kept as they are read. -/
theorem ofMembers_of_nodup {members : List (String × Json)}
    (distinct : (members.map (·.1)).Nodup) : ofMembers members = members := by
  suffices kept : ∀ before after : List (String × Json),
      ((before ++ after).map (·.1)).Nodup →
        after.foldl (fun members member => setMember members member.1 member.2) before =
          before ++ after from kept [] members distinct
  intro before after
  induction after generalizing before with
  | nil => simp
  | cons member rest ih =>
      intro distinct
      have absent : member.1 ∉ before.map (·.1) := by
        rw [List.map_append, List.nodup_append] at distinct
        intro present
        exact distinct.2.2 _ present member.1 (by simp) rfl
      rw [List.foldl_cons, setMember_of_absent absent, ih _ (by simpa using distinct)]
      simp

/-! ### Depth and the reader -/

theorem within_flat {json : Json} (flat : json.depth = 0) (limit : Nat) :
    json.within limit = .ok json := by
  simp [within, flat]

theorem within_zero_array (items : List Json) : within 0 (.array items) = .error .tooDeep := by
  simp [within, depth]

theorem within_zero_object (members : List (String × Json)) :
    within 0 (.object members) = .error .tooDeep := by
  simp [within, depth]

/-- A container is not too deep if no part of it is too deep for what is left. -/
theorem within_succ {α : Type} {container : Json} {parts : List α} {partDepth : α → Nat}
    {limit : Nat} {read : α → Except Cause α} {build : List α → Json}
    (deep : container.depth = 1 + deepest (parts.map partDepth))
    (each : ∀ part ∈ parts,
      read part = if partDepth part ≤ limit then .ok part else .error .tooDeep)
    (built : build parts = container) :
    within (limit + 1) container = (parts.mapM read).map build := by
  have shallow : container.depth ≤ limit + 1 ↔ ∀ part ∈ parts, partDepth part ≤ limit := by
    rw [deep, Nat.add_comm, Nat.add_le_add_iff_right, deepest_le_iff, List.forall_mem_map]
  rw [within, mapM_guarded each]
  by_cases allShallow : ∀ part ∈ parts, partDepth part ≤ limit
  · rw [if_pos (shallow.mpr allShallow), if_pos allShallow, Except.map, built]
  · rw [if_neg (mt shallow.mp allShallow), if_neg allShallow, Except.map]

/-- From the text of a legible document the reader gets that document, or refuses it for
its depth. -/
theorem reread_of_legible {json : Json} (legible : json.Legible) (limit : Nat) :
    json.reread limit = json.within limit := by
  induction legible generalizing limit with
  | null | boolean | string => rw [reread, within_flat (by simp [depth])]
  | integer least greatest =>
      rw [reread, within_flat (by simp [depth]), Literal.number,
        Literal.value_ofInt least greatest]
  | array _ ih =>
      cases limit with
      | zero => rw [reread, within_zero_array]
      | succ limit =>
          rw [reread]
          exact (within_succ (by rw [depth]) (fun item member => ih item member limit) rfl).symm
  | @object members distinct _ ih =>
      cases limit with
      | zero => rw [reread, within_zero_object]
      | succ limit =>
          rw [reread]
          refine (within_succ (by rw [depth]) ?_ (by rw [ofMembers_of_nodup distinct])).symm
          intro member isMember
          rw [ih member isMember, within]
          split <;> rfl

/-! ### Texts of legible documents -/

/-- A text of which the reader leaves nothing but blanks is a document. -/
theorem read_eq_ok {text behind : List Char} (blank : ∀ c ∈ behind, isBlank c) {json : Json}
    (reads : outcome (readValue nestingLimit text) = .ok (json, behind)) :
    read (String.ofList text) = .ok json := by
  rw [read, readWhole, String.toList_ofList]
  cases reading : readValue nestingLimit text with
  | error fault => simp [reading] at reads
  | ok found =>
      have same : found = (json, behind) := by simpa [reading] using reads
      have nothing : skipBlanks behind = [] := by
        rw [← List.append_nil behind, skipBlanks_append blank]
        rfl
      rw [same]
      simp only [nothing]

/-- A legible document that is not too deep reads back from any of its forms, whatever blanks
are put behind it. -/
theorem read_written_blanks (layout : Layout) {json : Json} (legible : json.Legible)
    (shallow : json.depth ≤ nestingLimit) {behind : List Char}
    (blank : ∀ c ∈ behind, isBlank c) :
    read (String.ofList (layout.written 0 json ++ behind)) = .ok json := by
  have delimited : Delimited behind := by
    rw [← List.append_nil behind]
    exact delimited_append blank Delimited.nil
  apply read_eq_ok blank
  rw [(reads_written layout nestingLimit 0 json).reads behind delimited,
    reread_of_legible legible, within, if_pos shallow]
  rfl

theorem read_written (layout : Layout) {json : Json} (legible : json.Legible)
    (shallow : json.depth ≤ nestingLimit) :
    read (String.ofList (layout.written 0 json)) = .ok json := by
  rw [read_written_eq_ok_iff, reread_of_legible legible, within, if_pos shallow]

/-- A legible document that is too deep is refused for that. -/
theorem read_too_deep (layout : Layout) {json : Json} (legible : json.Legible)
    (deep : nestingLimit < json.depth) :
    ∃ line column, read (String.ofList (layout.written 0 json)) =
      .error ⟨.tooDeep, line, column⟩ := by
  apply read_written_of_error
  rw [reread_of_legible legible, within, if_neg (Nat.not_le.mpr deep)]

/-- The text of a document as the only member of an object. -/
def memberObjectText (name : String) (text : String) : String :=
  "\x7b" ++ String.ofList (Quoted.write name) ++ ": " ++ text ++ "\x7d"

/-- Any form of a legible document, with blanks behind it, reads back as the only member
of an object. -/
theorem read_memberObjectText (layout : Layout) (name : String) {json : Json}
    (legible : json.Legible) (shallow : json.depth < nestingLimit) {behind : List Char}
    (blank : ∀ c ∈ behind, isBlank c) :
    read (memberObjectText name (String.ofList (layout.written 0 json ++ behind))) =
      .ok (.object [(name, json)]) := by
  let memberText := Layout.pretty.memberText name (layout.written 0 json)
  have text : memberObjectText name (String.ofList (layout.written 0 json ++ behind)) =
      String.ofList
        ('\x7b' :: (itemsText curlyBrackets.close [] behind ([json].map fun _ => memberText) ++
          [])) := by
    apply String.toList_injective
    simp [memberObjectText, itemsText, moreText, memberText, Layout.memberText, Layout.pretty,
      curlyBrackets]
  have each : ∀ item ∈ [json],
      Reads (readMember (readValue 126)) curlyBrackets.close memberText
        ((item.reread 126).map fun value => (name, value)) := by
    rw [List.forall_mem_singleton]
    exact reads_member Layout.pretty name (reads_written layout 126 0 json)
  have taken : json.reread 126 = .ok json := by
    rw [reread_of_legible legible, within, if_pos (Nat.le_of_lt_succ shallow)]
  rw [text]
  apply read_eq_ok (List.forall_mem_nil _)
  rw [nestingLimit, readValue_object, outcome_bind,
    outcome_readItems curlyBrackets_closing (List.forall_mem_nil _) blank each, List.mapM_cons,
    taken]
  rfl

end ConfTree.Json
