/-
Module: ConfTree.Proofs.Value.Writing
Purpose: A write deep inside a value changes what is in one place and nothing else.
Main exports:
  Value.LeadsTo, Value.SameStep, Value.written, Value.Respells, Value.Diverges,
  Value.KeepsFrame, Value.edit_eq_written, Value.write_changes_one_place
-/
import ConfTree.Proofs.Table.Filing
import ConfTree.Value.Edit

namespace ConfTree.Value

/-!
A write follows a chain of steps inwards and then puts the containers on the way together again,
each with one thing in it replaced.  All that there is to know of one container is what a single
step finds in it afterwards: what was put there, if the step leads to that place, and otherwise
what it found before, be it a value or a failure.  The rest follows along the chain.

When do two steps lead to the same place?  Where a table ignores case, a key may be spelled in
another way.  So it takes the value that a step is made from to tell, and two chains have to be
compared step by step along the values that they lead through.
-/

/-! ### Single steps -/

/-- The step leads from the first value to the second one. -/
inductive LeadsTo : Value → Step → Value → Prop
  | key {table : Table Value} {key : String} {child : Value}
      (found : table.get? key = some child) : LeadsTo (.map table) (.key key) child
  | item {items : List Value} {position : Nat} {child : Value}
      (there : items[position]? = some child) : LeadsTo (.sequence items) (.item position) child
  | inside (inner : Value) : LeadsTo (.boxed inner) .inside inner

section

variable {value child : Value} {step other : Step}

theorem child_key (table : Table Value) (key : String) :
    (map table).child (.key key) = table.at key := rfl

theorem child_item (items : List Value) (position : Nat) :
    (sequence items).child (.item position) =
      match items[position]? with
      | some item => .ok item
      | none => .error (.indexOutOfRange (Int64.ofNat position) items.length) := rfl

/-- A step can only be made from a value that it fits, and to something that is there. -/
theorem leadsTo_of_child (leads : value.child step = .ok child) : LeadsTo value step child := by
  cases step with
  | key key =>
      cases value with
      | map table =>
          rw [child_key, Table.at] at leads
          cases found : table.get? key with
          | none => simp [found] at leads
          | some entry =>
              simp only [found, Except.ok.injEq] at leads
              exact leads ▸ .key found
      | _ => cases leads
  | item position =>
      cases value with
      | sequence items =>
          rw [child_item] at leads
          cases there : items[position]? with
          | none => simp [there] at leads
          | some item =>
              simp only [there, Except.ok.injEq] at leads
              exact leads ▸ .item there
      | _ => cases leads
  | inside =>
      cases value with
      | boxed inner =>
          cases leads
          exact .inside _
      | _ => cases leads

/-- Both steps lead from the value to the same place: they differ in the spelling of a key, if at
all. -/
inductive SameStep : Value → Step → Step → Prop
  | same (value : Value) (step : Step) : SameStep value step step
  | spelled {table : Table Value} {key spelling : String}
      (same : table.strategy.keyClass spelling = table.strategy.keyClass key) :
      SameStep (.map table) (.key key) (.key spelling)

/-- Steps to the same place find the same there. -/
theorem child_of_sameStep (leads : value.child step = .ok child)
    (same : SameStep value step other) : value.child other = .ok child := by
  cases same with
  | same => exact leads
  | spelled same =>
      cases leadsTo_of_child leads with
      | key found => rw [child_key, Table.at, Table.get?_of_keyClass same, found]

/-- A key finds what was written under a key of its class. -/
theorem child_modify {table : Table Value} {key spelling : String} {child : Value}
    (found : table.get? key = some child)
    (same : table.strategy.keyClass spelling = table.strategy.keyClass key) (new : Value) :
    (map (table.modify key fun _ => new)).child (.key spelling) = .ok new := by
  rw [child_key, Table.at, Table.get?_modify same, found]
  rfl

/-- A step to the place that was written to finds what was written. -/
theorem child_withChild (leads : LeadsTo value step child) (same : SameStep value step other)
    (new : Value) : (value.withChild step new).child other = .ok new := by
  cases leads with
  | key found =>
      cases same with
      | same => exact child_modify found rfl new
      | spelled same => exact child_modify found same new
  | @item items position _ there =>
      cases same
      have below : position < items.length := (List.getElem?_eq_some_iff.mp there).1
      rw [withChild, child_item, List.getElem?_set_self below]
  | inside inner =>
      cases same
      rfl

/-- A step to another place finds what it found before, or fails as it did. -/
theorem child_withChild_of_apart (leads : LeadsTo value step child)
    (apart : ¬ SameStep value step other) (new : Value) :
    (value.withChild step new).child other = value.child other := by
  cases leads with
  | @key table key _ found =>
      cases other with
      | key spelling =>
          have otherClass : table.strategy.keyClass spelling ≠ table.strategy.keyClass key :=
            fun same => apart (.spelled same)
          rw [withChild, child_key, child_key, Table.at, Table.at,
            Table.get?_modify_of_ne otherClass]
      | item => rfl
      | inside => rfl
  | @item items position _ there =>
      cases other with
      | key => rfl
      | item elsewhere =>
          have different : position ≠ elsewhere := by
            rintro rfl
            exact apart (.same _ _)
          rw [withChild, child_item, child_item, List.getElem?_set_ne different, List.length_set]
      | inside => rfl
  | inside inner =>
      cases other with
      | key => rfl
      | item => rfl
      | inside => exact absurd (.same _ _) apart

/-- The second value is the same container as the first one with other things in it: a table has
its strategy, its size and its stored keys, and a sequence its length. -/
inductive KeepsFrame : Value → Value → Prop
  | map {table after : Table Value} (strategy : after.strategy = table.strategy)
      (size : after.size = table.size) (keys : after.keys = table.keys) :
      KeepsFrame (.map table) (.map after)
  | sequence {items after : List Value} (length : after.length = items.length) :
      KeepsFrame (.sequence items) (.sequence after)
  | boxed (inner after : Value) : KeepsFrame (.boxed inner) (.boxed after)

theorem keepsFrame_withChild (leads : LeadsTo value step child) (new : Value) :
    KeepsFrame value (value.withChild step new) := by
  cases leads with
  | @key table key _ _ =>
      have same := congrArg (List.map Prod.snd) (Table.SameKeys.modify table key fun _ => new).2
      rw [List.map_map, List.map_map] at same
      refine .map rfl (table.size_modify key _) ?_
      rw [Table.keys, Table.keys, Table.entries, Table.entries, List.map_map, List.map_map]
      exact same.symm
  | item => exact .sequence List.length_set
  | inside => exact .boxed _ new

end

/-! ### Chains -/

/-- The value with something else at the end of a chain of steps. -/
def written : Value → List Step → Value → Value
  | _, [], new => new
  | value, step :: rest, new =>
      match value.child step with
      | .ok child => value.withChild step (child.written rest new)
      | .error _ => value

/-- The second chain leads from the value along the first one: the steps are the same, up to the
spelling of keys. -/
inductive Respells : Value → List Step → List Step → Prop
  | nil (value : Value) : Respells value [] []
  | cons {value child : Value} {step other : Step} {steps others : List Step}
      (same : SameStep value step other) (leads : value.child step = .ok child)
      (further : Respells child steps others) :
      Respells value (step :: steps) (other :: others)

/-- The second chain leaves the first one: they go along together for a while, and then the second
one has a step to another place. -/
inductive Diverges : Value → List Step → List Step → Prop
  | here {value : Value} {step other : Step} {steps others : List Step}
      (apart : ¬ SameStep value step other) : Diverges value (step :: steps) (other :: others)
  | further {value child : Value} {step other : Step} {steps others : List Step}
      (same : SameStep value step other) (leads : value.child step = .ok child)
      (inside : Diverges child steps others) : Diverges value (step :: steps) (other :: others)

section

variable {value child node : Value} {step : Step} {steps : List Step}

theorem written_cons (leads : value.child step = .ok child) (steps : List Step) (new : Value) :
    value.written (step :: steps) new = value.withChild step (child.written steps new) := by
  rw [written, leads]

theorem reach_cons (leads : value.child step = .ok child) (steps : List Step) :
    value.reach (step :: steps) = child.reach steps := by
  rw [reach, leads]

/-- A chain that leads somewhere has a first step that does. -/
theorem exists_child_of_reach (leads : value.reach (step :: steps) = .ok node) :
    ∃ child, value.child step = .ok child ∧ child.reach steps = .ok node := by
  rw [reach] at leads
  cases first : value.child step with
  | error failure => simp [first] at leads
  | ok child =>
      simp only [first] at leads
      exact ⟨child, rfl, leads⟩

theorem respells_self (leads : value.reach steps = .ok node) : Respells value steps steps := by
  induction steps generalizing value with
  | nil => exact .nil value
  | cons step rest ih =>
      obtain ⟨child, leadsToChild, leadsOn⟩ := exists_child_of_reach leads
      exact .cons (.same value step) leadsToChild (ih leadsOn)

/-- To write at the end of a chain answers what was there. -/
theorem edit_eq_written (leads : value.reach steps = .ok node) (new : Value) :
    value.edit (fun _ => .ok new) steps = .ok (node, value.written steps new) := by
  induction steps generalizing value with
  | nil =>
      cases leads
      rfl
  | cons step rest ih =>
      obtain ⟨child, leadsToChild, leadsOn⟩ := exists_child_of_reach leads
      rw [edit, leadsToChild, written_cons leadsToChild]
      simp only [ih leadsOn]

/-- The chain that was written along, however it is spelled, leads to what was written and goes
on in it. -/
theorem reach_written {others : List Step} (respells : Respells value steps others) (new : Value)
    (further : List Step) :
    (value.written steps new).reach (others ++ further) = new.reach further := by
  induction respells with
  | nil => rfl
  | cons same leads _ ih =>
      rw [written_cons leads, List.cons_append,
        reach_cons (child_withChild (leadsTo_of_child leads) same _), ih]

/-- A chain that diverges leads to where it led before, or fails as it did. -/
theorem reach_written_of_diverges (leads : value.reach steps = .ok node) {others : List Step}
    (diverges : Diverges value steps others) (new : Value) :
    (value.written steps new).reach others = value.reach others := by
  induction diverges with
  | here apart =>
      obtain ⟨child, leadsToChild, _⟩ := exists_child_of_reach leads
      rw [written_cons leadsToChild, reach, reach,
        child_withChild_of_apart (leadsTo_of_child leadsToChild) apart]
  | further same leadsToChild _ ih =>
      rw [reach_cons leadsToChild] at leads
      rw [written_cons leadsToChild, reach_cons (child_of_sameStep leadsToChild same),
        reach_cons (child_withChild (leadsTo_of_child leadsToChild) same _), ih leads]

/-- Every container on the way along a chain keeps its frame. -/
theorem keepsFrame_written {front : List Step}
    (leads : value.reach (front ++ step :: steps) = .ok node) (new : Value) :
    ∃ container after, value.reach front = .ok container ∧
      (value.written (front ++ step :: steps) new).reach front = .ok after ∧
      KeepsFrame container after := by
  induction front generalizing value with
  | nil =>
      obtain ⟨child, leadsToChild, _⟩ := exists_child_of_reach leads
      refine ⟨value, _, rfl, rfl, ?_⟩
      rw [List.nil_append, written_cons leadsToChild]
      exact keepsFrame_withChild (leadsTo_of_child leadsToChild) _
  | cons first rest ih =>
      obtain ⟨child, leadsToChild, leadsOn⟩ := exists_child_of_reach leads
      obtain ⟨container, after, leadsThere, leadsAfter, keeps⟩ := ih leadsOn
      refine ⟨container, after, ?_, ?_, keeps⟩
      · rw [reach_cons leadsToChild, leadsThere]
      · rw [List.cons_append, written_cons leadsToChild,
          reach_cons (child_withChild (leadsTo_of_child leadsToChild) (.same _ _) _), leadsAfter]

/-- A chain of steps that leads to something can be written along, with whatever value.  In what
comes of it the same chain leads to that value, under every spelling of its keys, and goes on in
it.  Every chain that has a step to another place somewhere has the outcome that it had, a value
or a failure.  And each container on the way is the one that was there, with something else in
it: no table changes its strategy, its size or the keys that it stores, and no sequence its
length. -/
theorem write_changes_one_place (leads : value.reach steps = .ok node) (new : Value) :
    ∃ after, value.edit (fun _ => .ok new) steps = .ok (node, after) ∧
      after.reach steps = .ok new ∧
      (∀ others, Respells value steps others → ∀ further,
        after.reach (others ++ further) = new.reach further) ∧
      (∀ others, Diverges value steps others → after.reach others = value.reach others) ∧
      ∀ front step rest, steps = front ++ step :: rest →
        ∃ container changed, value.reach front = .ok container ∧
          after.reach front = .ok changed ∧ KeepsFrame container changed := by
  refine ⟨value.written steps new, edit_eq_written leads new, ?same, ?respelled, ?diverging,
    ?frames⟩
  case same =>
    have reached := reach_written (respells_self leads) new []
    rwa [List.append_nil] at reached
  case respelled => exact fun _ respells further => reach_written respells new further
  case diverging => exact fun _ diverges => reach_written_of_diverges leads diverges new
  case frames =>
    rintro front step rest rfl
    exact keepsFrame_written leads new

end

/-- A sequence in a box and a scalar beside it, filed by the strategy that ignores case. -/
def boxedPair : Value :=
  .map ⟨.hashedCaseInsensitive,
    [⟨"key", "Key", .boxed (.sequence [.integer 1, .integer 2])⟩, ⟨"rest", "Rest", .boolean true⟩]⟩

/-- An item is replaced along one spelling of its key and found along another one.  The item in
front of it, the entry beside it and what is missing are as they were. -/
theorem write_changes_one_item :
    boxedPair.reach [.key "kEY", .inside, .item 1] = .ok (.integer 2) ∧
      ∃ after,
        boxedPair.edit (fun _ => .ok (.text "new")) [.key "kEY", .inside, .item 1] =
          .ok (.integer 2, after) ∧
        after.reach [.key "KEY", .inside, .item 1] = .ok (.text "new") ∧
        after.reach [.key "KEY", .inside, .item 0] = .ok (.integer 1) ∧
        after.reach [.key "REST"] = .ok (.boolean true) ∧
        after.reach [.key "none", .inside] = .error (.keyNotFound "none") := by
  have leads : boxedPair.reach [.key "kEY", .inside, .item 1] = .ok (.integer 2) := rfl
  have spelled : SameStep boxedPair (.key "kEY") (.key "KEY") := .spelled (by decide)
  have respells : Respells boxedPair [.key "kEY", .inside, .item 1]
      [.key "KEY", .inside, .item 1] :=
    .cons spelled rfl (.cons (.same _ _) rfl (.cons (.same _ _) rfl (.nil _)))
  have otherItem : Diverges boxedPair [.key "kEY", .inside, .item 1]
      [.key "KEY", .inside, .item 0] :=
    .further spelled rfl (.further (.same _ _) rfl (.here nofun))
  have otherKey (key : String) (others : List Step)
      (otherClass : Strategy.foldCase key ≠ Strategy.foldCase "kEY") :
      Diverges boxedPair [.key "kEY", .inside, .item 1] (.key key :: others) := by
    refine .here ?_
    rintro (_ | same)
    · exact otherClass rfl
    · exact otherClass same
  obtain ⟨after, edited, _, respelled, diverging, _⟩ := write_changes_one_place leads (.text "new")
  exact ⟨leads, after, edited, respelled _ respells [], diverging _ otherItem,
    diverging _ (otherKey "REST" [] (by decide)),
    diverging _ (otherKey "none" [.inside] (by decide))⟩

end ConfTree.Value
