/-
Module: ConfTree.Proofs.Value.Layouts
Purpose: The pretty and the compact form of a value read alike.
Main exports:
  Value.SameReading, Value.sameReading_written, Value.forms_read_alike
-/
import ConfTree.Proofs.Json.Rereading
import ConfTree.Proofs.Value.Null

namespace ConfTree.Value

/-!
What is read from a text comes about in two steps, the document and its value.  The document is
the same for every form of the text, and so is the cause if there is none; only the place of
such a fault depends on the form.  The value is that of the document.
-/

/-- Two readings come to the same value, to a null at the same path, or to texts that are
refused for the same cause. -/
inductive SameReading : Except Failure Value → Except Failure Value → Prop
  | value (value : Value) : SameReading (.ok value) (.ok value)
  | null (path : String) :
      SameReading (.error (.unsupportedNull path)) (.error (.unsupportedNull path))
  | refused {first second : Json.SyntaxError} (sameCause : first.cause = second.cause) :
      SameReading (.error (.malformedJson first)) (.error (.malformedJson second))

/-- A document has a value, or a null for which there is none. -/
theorem sameReading_ofJson (strategy : Strategy) (json : Json) :
    SameReading (ofJson strategy json) (ofJson strategy json) := by
  by_cases hasNull : Json.Part .null json
  · obtain ⟨place, first⟩ := Json.exists_firstNull hasNull
    rw [ofJson_firstNull strategy first]
    exact .null _
  · obtain ⟨value, converts⟩ := exists_converts strategy hasNull
    rw [ofJson, converts ""]
    exact .value value

/-- Two forms of a document read alike. -/
theorem sameReading_written (strategy : Strategy) (first second : Json.Layout) (json : Json) :
    SameReading (Value.read strategy (String.ofList (first.written 0 json)))
      (Value.read strategy (String.ofList (second.written 0 json))) := by
  cases expected : json.reread Json.nestingLimit with
  | ok document =>
      have reading := (Json.read_written_eq_ok_iff first).mpr expected
      have otherReading := (Json.read_written_eq_ok_iff second).mpr expected
      simp only [Value.read, reading, otherReading]
      exact sameReading_ofJson strategy document
  | error cause =>
      obtain ⟨line, column, refused⟩ := Json.read_written_of_error first expected
      obtain ⟨otherLine, otherColumn, otherRefused⟩ :=
        Json.read_written_of_error second expected
      simp only [Value.read, refused, otherRefused]
      exact .refused rfl

theorem sameReading_forms (strategy : Strategy) (json : Json) :
    SameReading (Value.read strategy json.pretty) (Value.read strategy json.compact) := by
  have forms := sameReading_written strategy Json.Layout.pretty Json.Layout.compact json
  rwa [Json.Layout.written_pretty, Json.Layout.written_compact] at forms

/-- Whatever a value holds and whatever strategy it is read with, its two forms read alike: as
one value, with a null at one path, or both not at all and for the same cause.  The same is true
of the two forms of a table. -/
theorem forms_read_alike (strategy : Strategy) :
    (∀ value : Value,
        SameReading (Value.read strategy value.pretty) (Value.read strategy value.compact)) ∧
      ∀ table : Table Value,
        SameReading (Value.read strategy table.toJson.pretty)
          (Value.read strategy table.toJson.compact) :=
  ⟨fun value => sameReading_forms strategy value.toJson,
    fun table => sameReading_forms strategy table.toJson⟩

end ConfTree.Value
