/-
Module: ConfTree.Proofs.Value.Refiling
Purpose: What a document means does not depend on the strategy by which it is filed.
Main exports:
  Value.refiled, Value.refiled_of_converts, Json.ToldApart, Value.descend_agree,
  Value.strategies_agree
-/
import ConfTree.Proofs.Path.Agreement
import ConfTree.Proofs.Path.Parts
import ConfTree.Proofs.Table.Apart
import ConfTree.Proofs.Value.Document

namespace ConfTree

/-!
One document has a value under each strategy.  These values are never equal if there are
objects in the document, since tables of different strategies are not; so they are compared
after all tables have been filed anew under one strategy.  Along a path they are compared
step by step: both values come from one part of the document, and a segment leads to values
of one part again.

Under the strategy that ignores case, a key may find the member of another name.  If no
object has two names that differ in case only, whatever is found where case matters is
found there too; the converse is not true, since a key may be spelled in yet another way.
This is asked of the document that was read, where a repeated name has only its last value.
-/

namespace Value

/-! ### Filing anew -/

/-- The value whose tables are all filed anew, entry by entry, under that strategy. -/
def refiled (strategy : Strategy) : Value → Value
  | .boxed inner => .boxed (inner.refiled strategy)
  | .sequence items => .sequence (items.map fun item => item.refiled strategy)
  | .map ⟨_, slots⟩ =>
      .map (Table.ofList strategy (slots.map fun slot => (slot.key, slot.value.refiled strategy)))
  | .text content => .text content
  | .real number => .real number
  | .integer number => .integer number
  | .boolean truth => .boolean truth
termination_by value => sizeOf value
decreasing_by
  · simp_wf
  · exact sizeOf_item_lt ‹_›
  · exact sizeOf_slot_lt ‹_›

theorem refiled_map (strategy : Strategy) (table : Table Value) :
    (map table).refiled strategy =
      .map (Table.ofList strategy
        (table.entries.map fun entry => (entry.1, entry.2.refiled strategy))) := by
  cases table
  rw [refiled, Table.entries, List.map_map]
  rfl

theorem refiled_scalar (strategy : Strategy) {value : Value} (scalar : value.isScalar) :
    value.refiled strategy = value := by
  cases value with
  | boxed | sequence | map => cases scalar
  | _ => rw [refiled]

/-- A value that is filed by a strategy already stays as it is. -/
theorem refiled_self {strategy : Strategy} {value : Value} (filedBy : value.FiledBy strategy)
    (wellFiled : value.WellFiled) : value.refiled strategy = value := by
  induction value with
  | boxed inner ih => rw [refiled, ih filedBy.inner wellFiled.inner]
  | sequence items ih =>
      have each : ∀ item ∈ items, item.refiled strategy = item :=
        fun item isItem => ih item isItem (filedBy.item isItem) (wellFiled.item isItem)
      rw [refiled, List.map_congr_left each, List.map_id']
  | map table ih =>
      have sameStrategy : table.strategy = strategy := filedBy.self table rfl
      have each : ∀ entry ∈ table.entries,
          (entry.1, entry.2.refiled strategy) = entry := by
        intro entry isEntry
        obtain ⟨slot, isSlot, rfl⟩ := List.mem_map.mp isEntry
        exact Prod.ext rfl (ih slot isSlot (filedBy.entry isSlot) (wellFiled.entry isSlot))
      rw [refiled_map, List.map_congr_left each, List.map_id', ← sameStrategy,
        (wellFiled.self table rfl).ofList_entries]
  | _ => exact refiled_scalar strategy rfl

end Value

/-! ### Documents whose names are told apart -/

namespace Json

/-- No object in the document has two names in one class. -/
def ToldApart (strategy : Strategy) (json : Json) : Prop :=
  ∀ members, Part (.object members) json → strategy.TellsApart (members.map (·.1))

theorem ToldApart.of_ne {strategy : Strategy} (ownClass : strategy ≠ .hashedCaseInsensitive)
    (json : Json) : json.ToldApart strategy := by
  intro members _ first _ second _ sameClass
  cases strategy with
  | ordered | hashed => exact sameClass
  | hashedCaseInsensitive => exact absurd rfl ownClass

theorem ToldApart.item {strategy : Strategy} {items : List Json}
    (apart : ToldApart strategy (.array items)) {item : Json} (isItem : item ∈ items) :
    item.ToldApart strategy :=
  fun members isPart => apart members (.item isItem isPart)

theorem ToldApart.member {strategy : Strategy} {members : List (String × Json)}
    (apart : ToldApart strategy (.object members)) {member : String × Json}
    (isMember : member ∈ members) : member.2.ToldApart strategy :=
  fun others isPart => apart others (.member isMember isPart)

end Json

namespace Value

/-- Once its tables are filed in order, the value of a document is the one that it has where
keys are kept in order. -/
theorem refiled_of_converts {strategy : Strategy} {json : Json} {value ordered : Value}
    (apart : json.ToldApart strategy) (converts : Converts strategy json value)
    (inOrder : Converts .ordered json ordered) : value.refiled .ordered = ordered := by
  by_cases isOrdered : strategy = .ordered
  · subst isOrdered
    rw [converts.unique inOrder]
    exact refiled_self inOrder.filedBy inOrder.wellFiled
  induction json generalizing value ordered with
  | array items ih =>
      obtain ⟨values, rfl, each⟩ := converts_array converts
      obtain ⟨orderedValues, rfl, eachInOrder⟩ := converts_array inOrder
      have refiledEach : List.Forall₂ (fun x y : Value => x.refiled .ordered = y) values
          orderedValues :=
        forall₂_of_common each eachInOrder fun item isItem _ _ =>
          ih item isItem (apart.item isItem)
      rw [← List.forall₂_map_left_iff, List.forall₂_eq_eq_eq] at refiledEach
      rw [refiled, refiledEach]
  | object members ih =>
      obtain ⟨pairs, rfl, each⟩ := converts_object converts
      obtain ⟨orderedPairs, rfl, eachInOrder⟩ := converts_object inOrder
      have refiledEach : Json.MembersRelated (fun x y : Value => x.refiled .ordered = y) pairs
          orderedPairs := by
        apply forall₂_of_common each eachInOrder
        rintro member isMember pair orderedPair ⟨name, convertsMember⟩ ⟨sameName, memberInOrder⟩
        exact ⟨name.symm.trans sameName,
          ih member isMember (apart.member isMember) convertsMember memberInOrder⟩
      have names : strategy.TellsApart (pairs.map (·.1)) := by
        rw [← each.names]
        exact apart members (.whole _)
      rw [refiled_map, Table.entries_ofList isOrdered names, refiledEach.ofMembers.map_eq,
        Table.ofList_ofMembers_of_ne (by decide)]
  | null | boolean | integer | real | string =>
      obtain ⟨isScalar, alike⟩ := converts.scalar (by simp [Json.depth])
      rw [refiled_scalar _ isScalar]
      exact (alike .ordered).unique inOrder

/-! ### Look-ups -/

/-- A key leads to related values in tables of the same members.  Where case does not matter
there may be a value although there is none where it does. -/
theorem at_agree_of_members {strategy : Strategy} {members : List (String × Json)}
    (apart : strategy.TellsApart (members.map (·.1))) {first second : Json → Value → Prop}
    {both : Value → Value → Prop} {pairs others : List (String × Value)}
    (inOrder : Json.MembersRelated first members pairs)
    (filed : Json.MembersRelated second members others)
    (each : ∀ member ∈ members, ∀ x y, first member.2 x → second member.2 y → both x y)
    (key : String) :
    Path.Agree (strategy = .hashedCaseInsensitive) both
      ((Table.ofList .ordered pairs).at key) ((Table.ofList strategy others).at key) := by
  rw [Table.at, Table.at, Table.get?_ofList, Table.get?_ofList]
  cases isLast : Table.lastFiled .ordered members key with
  | some member =>
      obtain ⟨pair, lastPair, relatedPair⟩ := inOrder.lastFiled_eq_some isLast
      obtain ⟨other, lastOther, relatedOther⟩ :=
        filed.lastFiled_eq_some (Table.lastFiled_of_tellsApart apart isLast)
      rw [lastPair, lastOther]
      exact .found (each member (Table.mem_of_lastFiled isLast) _ _ relatedPair relatedOther)
  | none =>
      rw [inOrder.lastFiled_eq_none isLast]
      cases strategy with
      | ordered =>
          rw [filed.lastFiled_eq_none isLast]
          exact .failed _
      | hashed =>
          -- Here, too, each key is a class of its own.
          have nothing : Table.lastFiled .hashed members key = none := isLast
          rw [filed.lastFiled_eq_none nothing]
          exact .failed _
      | hashedCaseInsensitive => exact .excused rfl _ _

/-- The values come from one part of the document; the first one keeps keys in order. -/
def OfOnePart (strategy : Strategy) (json : Json) (value other : Value) : Prop :=
  ∃ part, Json.Part part json ∧ Converts .ordered part value ∧ Converts strategy part other

/-- A segment leads from values of one part of a document to values of one part of it. -/
theorem descend_agree {strategy : Strategy} {json : Json} (apart : json.ToldApart strategy)
    {value other : Value} (together : OfOnePart strategy json value other) (segment : String) :
    Path.Agree (strategy = .hashedCaseInsensitive) (OfOnePart strategy json)
      (value.descend segment) (other.descend segment) := by
  obtain ⟨part, isPart, inOrder, converts⟩ := together
  cases part with
  | array items =>
      obtain ⟨values, rfl, each⟩ := converts_array inOrder
      obtain ⟨others, rfl, eachOther⟩ := converts_array converts
      apply Path.itemAt_agree
      apply forall₂_of_common each eachOther
      intro item isItem x y convertsFirst convertsSecond
      exact ⟨item, Json.Part.trans (.item isItem (.whole item)) isPart, convertsFirst,
        convertsSecond⟩
  | object members =>
      obtain ⟨pairs, rfl, each⟩ := converts_object inOrder
      obtain ⟨others, rfl, eachOther⟩ := converts_object converts
      apply at_agree_of_members (apart members isPart) each eachOther
      intro member isMember x y convertsFirst convertsSecond
      exact ⟨member.2, Json.Part.trans (.member isMember (.whole member.2)) isPart,
        convertsFirst, convertsSecond⟩
  | null | boolean | integer | real | string =>
      obtain ⟨isScalar, alike⟩ := inOrder.scalar (by simp [Json.depth])
      rw [converts.unique (alike strategy), descend_scalar isScalar]
      exact .failed _

/-! ### Texts -/

/-- The values are equal once all tables in them are filed in order. -/
def SameContents (value other : Value) : Prop :=
  value.refiled .ordered = other.refiled .ordered ∧
    (value.refiled .ordered).equal (other.refiled .ordered)

theorem OfOnePart.sameContents {strategy : Strategy} {json : Json} {value other : Value}
    (together : OfOnePart strategy json value other) (apart : json.ToldApart strategy)
    (numbers : json.NaNFree) : SameContents value other := by
  obtain ⟨part, isPart, inOrder, converts⟩ := together
  have apartPart : part.ToldApart strategy := fun members inside =>
    apart members (inside.trans isPart)
  have numbersPart : part.NaNFree := fun number inside => numbers number (inside.trans isPart)
  rw [SameContents, refiled_of_converts apartPart converts inOrder,
    refiled_self inOrder.filedBy inOrder.wellFiled]
  exact ⟨rfl, equal_self inOrder.wellFiled (inOrder.nanFree numbersPart)⟩

/-- A text that cannot be read under one strategy cannot be read under another one. -/
theorem read_error_of_read_error {text : String} {failure : Failure} {strategy : Strategy}
    (fails : Value.read strategy text = .error failure) (other : Strategy) :
    Value.read other text = .error failure := by
  rw [Value.read] at fails ⊢
  cases document : Json.read text with
  | error error =>
      rw [document] at fails
      exact fails
  | ok json =>
      rw [document] at fails
      have hasNull : Json.Part .null json := by
        by_contra nullFree
        obtain ⟨value, converts⟩ := exists_converts strategy nullFree
        cases fails.symm.trans converts.ofJson
      obtain ⟨place, first⟩ := Json.exists_firstNull hasNull
      exact (ofJson_firstNull other first).trans ((ofJson_firstNull strategy first).symm.trans fails)

/-- A document that has a value where keys are kept in order is read under each strategy, and
paths lead to the same contents then if its names are told apart. -/
theorem exists_agreeing {text : String} {json : Json} (document : Json.read text = .ok json)
    {value : Value} (converts : Converts .ordered json value) {strategy : Strategy}
    (apart : json.ToldApart strategy) :
    ∃ other, Value.read strategy text = .ok other ∧
      ∀ path, Path.Agree (strategy = .hashedCaseInsensitive) SameContents (value.resolve path)
        (other.resolve path) := by
  obtain ⟨other, alsoConverts⟩ := exists_converts strategy converts.nullFree
  refine ⟨other, ?_, ?_⟩
  · rw [Value.read, document]
    exact alsoConverts.ofJson
  · intro path
    have together : OfOnePart strategy json value other :=
      ⟨json, .whole json, converts, alsoConverts⟩
    have agree := resolve_agree (fun _ _ => descend_agree apart) together path
    apply agree.imp id
    exact fun x y ofOnePart => ofOnePart.sameContents apart (Json.nanFree_of_read document)

/-- The strategy plays no part in what a text means.  If it cannot be read, that is so under
every strategy, for the same reason.  If it can, each path has the same outcome where keys
are kept in order and where they are not: the same failure, or values that are equal once
their tables are filed alike.  Where case is ignored, too, each path that finds something
where it is not finds the same there, provided no object has two names that differ in
nothing but case. -/
theorem strategies_agree (text : String) :
    (∀ strategy failure, Value.read strategy text = .error failure →
      ∀ other, Value.read other text = .error failure) ∧
    ∀ value, Value.read .ordered text = .ok value →
      (∃ other, Value.read .hashed text = .ok other ∧
        ∀ path, Path.Agree False SameContents (value.resolve path) (other.resolve path)) ∧
      ∀ json, Json.read text = .ok json → json.ToldApart .hashedCaseInsensitive →
        ∃ other, Value.read .hashedCaseInsensitive text = .ok other ∧
          ∀ path found, value.resolve path = .ok found →
            ∃ counterpart, other.resolve path = .ok counterpart ∧
              SameContents found counterpart := by
  refine ⟨fun _ _ => read_error_of_read_error, ?_⟩
  intro value reads
  cases document : Json.read text with
  | error error =>
      rw [Value.read, document] at reads
      cases reads
  | ok json =>
      have converts : Converts .ordered json value := by
        rw [Value.read, document] at reads
        exact converts_of_ofJson reads
      constructor
      · have apart : json.ToldApart .hashed := .of_ne (by decide) json
        obtain ⟨other, readsOther, agree⟩ := exists_agreeing document converts apart
        refine ⟨other, readsOther, ?_⟩
        intro path
        apply (agree path).imp
        · decide
        · exact fun _ _ => id
      · rintro _ ⟨⟩ apart
        obtain ⟨other, readsOther, agree⟩ := exists_agreeing document converts apart
        refine ⟨other, readsOther, ?_⟩
        exact fun path found resolves => (agree path).exists_found resolves

/-! ### A text that is read under each strategy -/

/-- A document with a name that may be spelled in more than one way. -/
def cased : Json := .object [("Key", .array [.integer 1])]

theorem document_cased : Json.read "\x7b\"Key\":[1]\x7d" = .ok cased := by
  have legible : cased.Legible :=
    .object (by simp) (List.forall_mem_singleton.mpr
      (.array (List.forall_mem_singleton.mpr (.integer (by decide) (by decide)))))
  have shallow : cased.depth ≤ Json.nestingLimit := by
    simp [cased, Json.depth, Json.deepest, Json.nestingLimit]
  have text : "\x7b\"Key\":[1]\x7d" = String.ofList (Json.Layout.compact.written 0 cased) := by
    rw [Json.Layout.written_compact]
    rfl
  rw [text]
  exact Json.read_written Json.Layout.compact legible shallow

theorem toldApart_cased (strategy : Strategy) : cased.ToldApart strategy := by
  intro members isPart
  cases isPart with
  | whole => simp [Strategy.TellsApart]
  | member isMember inside =>
      cases List.mem_singleton.mp isMember
      cases inside with
      | item isItem inside =>
          cases List.mem_singleton.mp isItem
          cases inside

/-- Under each strategy a null is refused in the same way, and `cased` is read with the same
contents. -/
theorem strategies_agree_cased :
    (∀ other, Value.read other "null" = .error (.unsupportedNull "")) ∧
      ∃ value, Value.read .ordered "\x7b\"Key\":[1]\x7d" = .ok value ∧
        (∃ other, Value.read .hashed "\x7b\"Key\":[1]\x7d" = .ok other ∧
          Path.Agree False SameContents (value.resolve "key") (other.resolve "key")) ∧
        ∃ other counterpart, Value.read .hashedCaseInsensitive "\x7b\"Key\":[1]\x7d" = .ok other ∧
          other.resolve "Key" = .ok counterpart ∧
          SameContents (.sequence [.integer 1]) counterpart := by
  have refused : Value.read .ordered "null" = .error (.unsupportedNull "") := rfl
  have reads : Value.read .ordered "\x7b\"Key\":[1]\x7d" =
      .ok (.map (Table.ofList .ordered [("Key", .sequence [.integer 1])])) := by
    rw [Value.read, document_cased]
    rfl
  obtain ⟨⟨other, readsOther, agree⟩, ignoringCase⟩ :=
    (strategies_agree "\x7b\"Key\":[1]\x7d").2 _ reads
  obtain ⟨folded, readsFolded, found⟩ := ignoringCase cased document_cased (toldApart_cased _)
  obtain ⟨counterpart, resolves, same⟩ := found "Key" (.sequence [.integer 1])
    (resolve_dotless _ (by decide))
  exact ⟨(strategies_agree "null").1 .ordered _ refused, _, reads, ⟨other, readsOther, agree "key"⟩,
    folded, counterpart, readsFolded, resolves, same⟩

end Value

end ConfTree
