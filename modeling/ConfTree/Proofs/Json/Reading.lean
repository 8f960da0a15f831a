/-
Module: ConfTree.Proofs.Json.Reading
Purpose: What is true of every document that is read from a text.
Main exports:
  Json.readValue_induction, Json.depth_le_of_read, Json.NaNFree, Json.nanFree_of_read
-/
import ConfTree.Proofs.Json.Evaluation
import ConfTree.Proofs.Json.ObjectText
import ConfTree.Proofs.Json.Shape
import ConfTree.Proofs.Table.Pairs

namespace ConfTree

/-!
A document that has been read was put together in one way: scalars come from the texts of
scalars, a container takes up one of the containers that may be open and holds what was read
inside it, and members of the same name are merged.  So a property of documents need only be
shown for these steps.  The limit is part of it, since each container lowers it for what is
inside.

Two properties are wanted.  A document is never deeper than the limit, and no real in it is
something else than a number, because every literal is rounded to one.
-/

namespace Json

/-! ### Documents as they are read -/

section Items

variable {α : Type} {brackets : Brackets} {item : Reader α} {property : α → Prop}

theorem ReadsMore.forall_mem (each : ∀ text x rest, item text = .ok (x, rest) → property x)
    {text rest : List Char} {items : List α} (reads : ReadsMore brackets item text items rest) :
    ∀ x ∈ items, property x := by
  induction reads with
  | close => exact List.forall_mem_nil _
  | comma _ _ _ readsItem _ ih => exact List.forall_mem_cons.mpr ⟨each _ _ _ readsItem, ih⟩

/-- Each item of a container is what a reading of an item gave. -/
theorem forall_mem_of_readItems
    (each : ∀ text x rest, item text = .ok (x, rest) → property x) {text rest : List Char}
    {items : List α} (reads : readItems brackets item text = .ok (items, rest)) :
    ∀ x ∈ items, property x := by
  cases start : skipBlanks text with
  | nil =>
      rw [readItems, start] at reads
      cases reads
  | cons c after =>
      by_cases closes : c = brackets.close
      · rw [closes] at start
        rw [readItems_close start] at reads
        cases reads
        exact List.forall_mem_nil _
      · rw [readItems_first start closes] at reads
        obtain ⟨⟨first, afterItem⟩, readsItem, reads⟩ := bind_eq_ok_iff.mp reads
        obtain ⟨⟨others, behindOthers⟩, readsOthers, result⟩ := bind_eq_ok_iff.mp reads
        cases result
        have following := (readsMore_of_eq_ok readsOthers).1
        exact List.forall_mem_cons.mpr ⟨each _ _ _ readsItem, following.forall_mem each⟩

end Items

theorem readMember_value {value : Reader Json} {text rest : List Char} {member : String × Json}
    (reads : readMember value text = .ok (member, rest)) :
    ∃ text, value text = .ok (member.2, rest) := by
  fun_cases readMember value text with
  | case1 behind =>
      obtain ⟨⟨name, afterName⟩, _, reads⟩ := bind_eq_ok_iff.mp reads
      obtain ⟨afterColon, _, reads⟩ := bind_eq_ok_iff.mp reads
      obtain ⟨⟨found, afterValue⟩, readsValue, result⟩ := bind_eq_ok_iff.mp reads
      cases result
      exact ⟨afterColon, readsValue⟩
  | case2 =>
      rw [readMember] at reads
      · cases reads
      · assumption

/-- Induction over how a document was read. -/
theorem readValue_induction {motive : Nat → Json → Prop}
    (scalar : ∀ limit text json rest, readScalar text = .ok (json, rest) → motive limit json)
    (array : ∀ limit items, (∀ item ∈ items, motive limit item) →
      motive (limit + 1) (.array items))
    (object : ∀ limit members, (∀ member ∈ members, motive limit member.2) →
      motive (limit + 1) (.object (ofMembers members)))
    {limit : Nat} {text rest : List Char} {json : Json}
    (reads : readValue limit text = .ok (json, rest)) : motive limit json := by
  induction limit using Nat.strongRecOn generalizing text rest json with
  | ind limit ih =>
  cases start : skipBlanks text with
  | nil =>
      rw [readValue_start start] at reads
      cases limit <;> cases reads
  | cons c behind =>
      have notBlank := isBlank_of_skipBlanks start
      rw [readValue_start start] at reads
      by_cases square : c = '['
      · rw [square] at reads
        cases limit with
        | zero => cases reads
        | succ limit =>
            rw [readValue_array] at reads
            obtain ⟨⟨items, afterItems⟩, readsItems, result⟩ := bind_eq_ok_iff.mp reads
            cases result
            have each : ∀ text item rest, readValue limit text = .ok (item, rest) →
                motive limit item :=
              fun _ _ _ readsItem => ih limit (Nat.lt_succ_self limit) readsItem
            exact array limit items (forall_mem_of_readItems each readsItems)
      · by_cases curly : c = '\x7b'
        · rw [curly] at reads
          cases limit with
          | zero => cases reads
          | succ limit =>
              rw [readValue_object] at reads
              obtain ⟨⟨members, afterMembers⟩, readsMembers, result⟩ := bind_eq_ok_iff.mp reads
              cases result
              have each : ∀ text (member : String × Json) rest,
                  readMember (readValue limit) text = .ok (member, rest) →
                    motive limit member.2 := by
                intro _ member _ readsMember
                obtain ⟨_, readsValue⟩ := readMember_value readsMember
                exact ih limit (Nat.lt_succ_self limit) readsValue
              exact object limit members (forall_mem_of_readItems each readsMembers)
        · rw [readValue_scalar notBlank square curly] at reads
          exact scalar limit _ json rest reads

/-- A scalar is a fixed word, a string, or the number of a literal. -/
theorem readScalar_cases {text rest : List Char} {json : Json}
    (reads : readScalar text = .ok (json, rest)) :
    json = .null ∨ (∃ value, json = .boolean value) ∨ (∃ value, json = .string value) ∨
      ∃ literal : Literal, literal.value = .ok json := by
  fun_cases readScalar text with
  | case1 => cases reads
  | case2 behind =>
      obtain ⟨⟨value, _⟩, _, result⟩ := bind_eq_ok_iff.mp reads
      cases result
      exact .inr (.inr (.inl ⟨value, rfl⟩))
  | case3 behind =>
      obtain ⟨_, _, result⟩ := bind_eq_ok_iff.mp reads
      cases result
      exact .inl rfl
  | case4 behind | case5 behind =>
      obtain ⟨_, _, result⟩ := bind_eq_ok_iff.mp reads
      cases result
      exact .inr (.inl ⟨_, rfl⟩)
  | case6 c behind =>
      rw [readScalar, if_pos ‹_›, Literal.read] at reads
      obtain ⟨⟨literal, _⟩, _, evaluated⟩ := bind_eq_ok_iff.mp reads
      cases value : literal.value with
      | error => simp only [value] at evaluated; cases evaluated
      | ok number =>
          simp only [value] at evaluated
          cases evaluated
          exact .inr (.inr (.inr ⟨literal, value⟩))
      all_goals assumption
  | case7 c behind =>
      rw [readScalar, if_neg ‹_›] at reads
      · cases reads
      all_goals assumption

/-! ### Depth -/

/-- A reader that may open so many containers gets no document that is deeper. -/
theorem depth_le_of_readValue {limit : Nat} {text rest : List Char} {json : Json}
    (reads : readValue limit text = .ok (json, rest)) : json.depth ≤ limit := by
  refine readValue_induction (motive := fun limit json => json.depth ≤ limit)
    ?scalar ?array ?object reads
  case scalar =>
    intro limit text json rest reads
    have flat : json.depth = 0 := by
      rcases readScalar_cases reads with rfl | ⟨_, rfl⟩ | ⟨_, rfl⟩ | ⟨literal, stands⟩
      · simp [depth]
      · simp [depth]
      · simp [depth]
      · rcases Literal.finite_of_value stands with ⟨_, rfl, _⟩ | ⟨_, rfl, _⟩
        · simp [depth]
        · simp [depth]
    exact flat.trans_le (Nat.zero_le limit)
  case array =>
    intro limit items each
    rw [depth, Nat.add_comm, Nat.add_le_add_iff_right, deepest_le_iff, List.forall_mem_map]
    exact each
  case object =>
    intro limit members each
    rw [depth, Nat.add_comm, Nat.add_le_add_iff_right, deepest_le_iff, List.forall_mem_map]
    exact fun member isMember => each member (mem_of_mem_ofMembers isMember)

/-! ### Reals -/

/-- No real in the document is not a number. -/
def NaNFree (json : Json) : Prop := ∀ number, Part (.real number) json → number.isNaN = false

theorem nanFree_of_readValue {limit : Nat} {text rest : List Char} {json : Json}
    (reads : readValue limit text = .ok (json, rest)) : json.NaNFree := by
  refine readValue_induction (motive := fun _ json => json.NaNFree) ?scalar ?array ?object reads
  case scalar =>
    intro limit text json rest reads number isPart
    rcases readScalar_cases reads with rfl | ⟨_, rfl⟩ | ⟨_, rfl⟩ | ⟨literal, stands⟩
    · cases isPart
    · cases isPart
    · cases isPart
    · rcases Literal.finite_of_value stands with ⟨_, rfl, _⟩ | ⟨_, rfl, finite⟩
      · cases isPart
      · cases isPart
        exact (Binary64.isFinite_iff.mp finite).1
  case array =>
    intro limit items each number isPart
    cases isPart with
    | item isItem inside => exact each _ isItem number inside
  case object =>
    intro limit members each number isPart
    cases isPart with
    | member isMember inside => exact each _ (mem_of_mem_ofMembers isMember) number inside

/-! ### Whole texts -/

/-- No document is deeper than the limit. -/
theorem depth_le_of_read {text : String} {json : Json} (reads : read text = .ok json) :
    json.depth ≤ nestingLimit := by
  rw [← text.ofList_toList] at reads
  obtain ⟨_, _, readsValue⟩ := holds_of_read reads
  exact depth_le_of_readValue readsValue

theorem nanFree_of_read {text : String} {json : Json} (reads : read text = .ok json) :
    json.NaNFree := by
  rw [← text.ofList_toList] at reads
  obtain ⟨_, _, readsValue⟩ := holds_of_read reads
  exact nanFree_of_readValue readsValue

end Json

end ConfTree
