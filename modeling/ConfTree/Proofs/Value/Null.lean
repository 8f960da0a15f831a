/-
Module: ConfTree.Proofs.Value.Null
Purpose: A document is converted unless there is a null in it; then its first null is
  reported, by the path that leads to it.
Main exports:
  Value.Converts, Value.convertMembers_eq_ok, Value.exists_converts, Value.convert_firstNull,
  Value.ofJson_reports_first_null
-/
import ConfTree.Proofs.Json.Shape
import ConfTree.Proofs.Path.Segments
import ConfTree.Proofs.Success

namespace ConfTree.Value

/-!
The path that is carried along serves the report of a null and nothing else.  So a
document without nulls has one value wherever it stands, and in a document with nulls all
that is in front of the first one is converted as if nothing were wrong.  Then the path
has grown by each key and index on the way to that null, in this order.
-/

variable {strategy : Strategy}

/-! ### Documents without nulls -/

/-- The document has that value at any path. -/
def Converts (strategy : Strategy) (json : Json) (value : Value) : Prop :=
  ∀ path, convert strategy path json = .ok value

theorem convertItems_eq_ok {items : List Json} {values : List Value}
    (each : List.Forall₂ (Converts strategy) items values) (path : String) (index : Nat) :
    convertItems strategy path index items = .ok values := by
  induction each generalizing index with
  | nil => rw [convertItems]
  | cons first _ ih => rw [convertItems, first, ih]

/-- Members with values are filed with them, in their order. -/
theorem convertMembers_eq_ok {members : List (String × Json)} {pairs : List (String × Value)}
    (each : List.Forall₂
      (fun member pair => member.1 = pair.1 ∧ Converts strategy member.2 pair.2) members pairs)
    (path : String) : convertMembers strategy path members = .ok pairs := by
  induction each with
  | nil => rw [convertMembers]
  | @cons member pair _ _ first _ ih =>
      obtain ⟨name, json⟩ := member
      obtain ⟨_, value⟩ := pair
      obtain ⟨rfl, converts⟩ := first
      rw [convertMembers, converts, ih]

/-- Members can be filed with their values if each of them has one. -/
theorem exists_pairs {members : List (String × Json)}
    (each : ∀ member ∈ members, ∃ value, Converts strategy member.2 value) :
    ∃ pairs : List (String × Value), List.Forall₂
      (fun member pair => member.1 = pair.1 ∧ Converts strategy member.2 pair.2) members pairs := by
  apply exists_forall₂_iff.mpr
  intro member isMember
  obtain ⟨value, converts⟩ := each member isMember
  exact ⟨(member.1, value), rfl, converts⟩

/-- A document without nulls has a value, and the same wherever it stands. -/
theorem exists_converts (strategy : Strategy) {json : Json} (nullFree : json.NullFree) :
    ∃ value, Converts strategy json value := by
  induction json with
  | null => exact absurd nullFree Json.not_nullFree_null
  | boolean truth => exact ⟨.boolean truth, fun _ => by rw [convert]⟩
  | integer number => exact ⟨ofWhole number, fun _ => by rw [convert]⟩
  | real number => exact ⟨.real number, fun _ => by rw [convert]⟩
  | string content => exact ⟨.text content, fun _ => by rw [convert]⟩
  | array items ih =>
      obtain ⟨values, each⟩ := exists_forall₂_iff.mpr fun item member =>
        ih item member (nullFree.item member)
      refine ⟨.sequence values, ?_⟩
      intro path
      rw [convert, convertItems_eq_ok each]
  | object members ih =>
      obtain ⟨pairs, each⟩ := exists_pairs fun member isMember =>
        ih member isMember (nullFree.member isMember)
      refine ⟨.map (Table.ofList strategy pairs), ?_⟩
      intro path
      rw [convert, convertMembers_eq_ok each]

/-! ### The first null -/

/-- Items in front of one that fails do not keep it from failing. -/
theorem convertItems_first_error {before : List Json} {item : Json} {failure : Failure}
    (nullFree : ∀ earlier ∈ before, earlier.NullFree) {path : String} {index : Nat}
    (fails : convert strategy (childPath path (toString (index + before.length))) item =
      .error failure) (after : List Json) :
    convertItems strategy path index (before ++ item :: after) = .error failure := by
  induction before generalizing index with
  | nil =>
      rw [List.length_nil, Nat.add_zero] at fails
      rw [List.nil_append, convertItems, fails]
  | cons first rest ih =>
      obtain ⟨firstFree, restFree⟩ := List.forall_mem_cons.mp nullFree
      obtain ⟨value, converts⟩ := exists_converts strategy firstFree
      have further : index + (first :: rest).length = index + 1 + rest.length := by
        rw [List.length_cons]
        omega
      rw [further] at fails
      rw [List.cons_append, convertItems, converts, ih restFree fails]

/-- Members in front of one that fails do not keep it from failing. -/
theorem convertMembers_first_error {before : List (String × Json)} {name : String}
    {json : Json} {failure : Failure} (nullFree : ∀ earlier ∈ before, earlier.2.NullFree)
    {path : String} (fails : convert strategy (childPath path name) json = .error failure)
    (after : List (String × Json)) :
    convertMembers strategy path (before ++ (name, json) :: after) = .error failure := by
  induction before with
  | nil => rw [List.nil_append, convertMembers, fails]
  | cons first rest ih =>
      obtain ⟨firstFree, restFree⟩ := List.forall_mem_cons.mp nullFree
      obtain ⟨value, converts⟩ := exists_converts strategy firstFree
      rw [List.cons_append, convertMembers, converts, ih restFree]

/-- The first null stops the conversion.  The path that is reported has grown along the
way to it. -/
theorem convert_firstNull (strategy : Strategy) {json : Json} {place : List String}
    (first : json.FirstNull place) (path : String) :
    convert strategy path json = .error (.unsupportedNull (place.foldl childPath path)) := by
  induction first generalizing path with
  | here => rw [convert, List.foldl_nil]
  | @item before after item place noneBefore inside ih =>
      have fails := ih (childPath path (toString (0 + before.length)))
      rw [convert, convertItems_first_error noneBefore fails, Nat.zero_add, List.foldl_cons]
  | @member before after name value place noneBefore inside ih =>
      rw [convert, convertMembers_first_error noneBefore (ih (childPath path name)),
        List.foldl_cons]

/-- There is no dot on the way to the first null if there is none in the keys. -/
theorem dotless_firstNull {json : Json} {place : List String} (first : json.FirstNull place)
    (dotless : json.DotlessKeys) : ∀ segment ∈ place, '.' ∉ segment.toList := by
  induction first with
  | here => exact List.forall_mem_nil _
  | @item before after item place noneBefore inside ih =>
      have here : item ∈ before ++ item :: after :=
        List.mem_append_right before List.mem_cons_self
      exact List.forall_mem_cons.mpr
        ⟨Path.not_dot_mem_index before.length, ih (Json.dotlessKeys_array.mp dotless item here)⟩
  | @member before after name value place noneBefore inside ih =>
      have here : (name, value) ∈ before ++ (name, value) :: after :=
        List.mem_append_right before List.mem_cons_self
      obtain ⟨dotlessName, dotlessValue⟩ := Json.dotlessKeys_object.mp dotless _ here
      exact List.forall_mem_cons.mpr ⟨dotlessName, ih dotlessValue⟩

theorem ofJson_firstNull (strategy : Strategy) {json : Json} {place : List String}
    (first : json.FirstNull place) :
    ofJson strategy json = .error (.unsupportedNull (Path.location place)) := by
  rw [ofJson, convert_firstNull strategy first, Path.foldl_childPath_root]

/-- Two documents that are refused alike have their first null at the same place, unless
that is under an empty key at the root. -/
theorem place_unique {json other : Json} {place otherPlace : List String}
    (first : json.FirstNull place) (otherFirst : other.FirstNull otherPlace)
    (notRoot : json ≠ .null) (otherNotRoot : other ≠ .null) (dotless : json.DotlessKeys)
    (otherDotless : other.DotlessKeys) (begins : place.head? ≠ some "")
    (otherBegins : otherPlace.head? ≠ some "")
    (alike : ofJson strategy other = ofJson strategy json) : otherPlace = place := by
  have samePath : Path.location otherPlace = Path.location place := by
    rw [ofJson_firstNull strategy first, ofJson_firstNull strategy otherFirst] at alike
    injection alike with sameFailure
    injection sameFailure
  calc otherPlace
      = Path.segments (Path.location otherPlace) :=
        ((Path.segments_location_eq_iff (otherFirst.ne_nil otherNotRoot)
          (dotless_firstNull otherFirst otherDotless)).mpr (.inl otherBegins)).symm
    _ = Path.segments (Path.location place) := by rw [samePath]
    _ = place :=
        (Path.segments_location_eq_iff (first.ne_nil notRoot)
          (dotless_firstNull first dotless)).mpr (.inl begins)

/-- A document with a null below its root is refused.  Where the first null stands is
settled by the document alone, and the failure has the path of that place.  If there is no
dot in the keys, the segments of that path are the keys and indices on the way, unless
several of them begin with an empty key.  Without an empty key at the front no other place
has the same path, and to resolve the path is to descend along the place. -/
theorem ofJson_reports_first_null (strategy : Strategy) {json : Json}
    (hasNull : Json.Part .null json) (notRoot : json ≠ .null) (dotless : json.DotlessKeys) :
    ∃ place, (∀ other, json.FirstNull other ↔ other = place) ∧
      ofJson strategy json = .error (.unsupportedNull (Path.location place)) ∧
      (Path.segments (Path.location place) = place ↔
        place.head? ≠ some "" ∨ place = [""]) ∧
      (place.head? ≠ some "" →
        (∀ (other : Json) (otherPlace : List String), other ≠ .null → other.DotlessKeys →
          other.FirstNull otherPlace → otherPlace.head? ≠ some "" →
          ofJson strategy other = ofJson strategy json → otherPlace = place) ∧
        ∀ value : Value,
          value.resolve (Path.location place) = place.foldlM descend value) := by
  obtain ⟨place, first⟩ := Json.exists_firstNull hasNull
  have notNil := first.ne_nil notRoot
  have dotlessPlace := dotless_firstNull first dotless
  refine ⟨place, ?_, ofJson_firstNull strategy first,
    Path.segments_location_eq_iff notNil dotlessPlace, ?_⟩
  · intro other
    constructor
    · intro alsoFirst
      exact alsoFirst.unique first
    · rintro rfl
      exact first
  · intro begins
    constructor
    · intro other otherPlace otherNotRoot otherDotless otherFirst otherBegins alike
      exact place_unique first otherFirst notRoot otherNotRoot dotless otherDotless begins
        otherBegins alike
    · intro value
      rw [Path.location_of_head_ne begins]
      exact value.resolve_intercalate notNil dotlessPlace

/-- A null in an array and one behind it: the first one is reported. -/
theorem ofJson_reports_item :
    ∃ place, (∀ other,
        Json.FirstNull (.object [("a", .array [.integer 1, .null]), ("b", .null)]) other ↔
          other = place) ∧
      ofJson .ordered (.object [("a", .array [.integer 1, .null]), ("b", .null)]) =
        .error (.unsupportedNull (Path.location place)) := by
  have hasNull : Json.Part .null
      (.object [("a", .array [.integer 1, .null]), ("b", .null)]) :=
    .member (List.mem_cons_of_mem _ List.mem_cons_self) (.whole .null)
  have dotless : Json.DotlessKeys
      (.object [("a", .array [.integer 1, .null]), ("b", .null)]) := by
    have number : (Json.integer 1).DotlessKeys := Json.dotlessKeys_of_scalar fun _ => nofun
    have null : Json.null.DotlessKeys := Json.dotlessKeys_of_scalar fun _ => nofun
    simp [Json.dotlessKeys_object, Json.dotlessKeys_array, number, null]
  obtain ⟨place, unique, reported, _⟩ :=
    ofJson_reports_first_null .ordered hasNull nofun dotless
  exact ⟨place, unique, reported⟩

/-- An empty key at the root leaves no trace: the path of the null under it is the path of
another place. -/
theorem ofJson_forgets_empty_key :
    Json.FirstNull (.object [("", .object [("a", .null)])]) ["", "a"] ∧
      Json.DotlessKeys (.object [("", .object [("a", .null)])]) ∧
      ofJson .ordered (.object [("", .object [("a", .null)])]) =
        .error (.unsupportedNull "a") ∧
      Path.segments "a" ≠ ["", "a"] ∧
      ofJson .ordered (.object [("a", .null)]) = .error (.unsupportedNull "a") := by
  have first : Json.FirstNull (.object [("", .object [("a", .null)])]) ["", "a"] := by
    apply @Json.FirstNull.member [] [] "" _ _ (List.forall_mem_nil _)
    apply @Json.FirstNull.member [] [] "a" _ _ (List.forall_mem_nil _)
    exact .here
  have dotless : Json.DotlessKeys (.object [("", .object [("a", .null)])]) := by
    have null : Json.null.DotlessKeys := Json.dotlessKeys_of_scalar fun _ => nofun
    simp [Json.dotlessKeys_object, null]
  exact ⟨first, dotless, rfl, by decide, rfl⟩

end ConfTree.Value
