/-
Module: ConfTree.Proofs.Json.Container
Purpose: The loop over the items of a container reads each item and nothing else.
Main exports:
  Json.outcome, Json.Reads, Json.outcome_readItems
-/
import ConfTree.Proofs.Json.Layout
import ConfTree.Proofs.Json.Literal

namespace ConfTree.Json

/-!
What a reader makes of a written text is stated for any text that may follow it, since
that is what the loop over a container hands on.  The place of a fault is left out: it
depends on all that was read before.  With that the loop is `mapM`: it succeeds with
what the items give if they all do, and otherwise fails as the first one that does.
-/

/-- What came of a reading, but for the place of a fault. -/
def outcome {α : Type} (reading : Except Fault α) : Except Cause α :=
  reading.mapError (·.cause)

section

variable {α β : Type}

@[simp] theorem outcome_ok (result : α) : outcome (.ok result) = .ok result := rfl

@[simp] theorem outcome_error (fault : Fault) :
    outcome (.error fault : Except Fault α) = .error fault.cause := rfl

@[simp] theorem outcome_bind (reading : Except Fault α) (next : α → Except Fault β) :
    outcome (reading >>= next) = outcome reading >>= fun result => outcome (next result) := by
  cases reading <;> rfl

/-! ### Blanks -/

theorem skipBlanks_cons {c : Char} (notBlank : isBlank c = false) (rest : List Char) :
    skipBlanks (c :: rest) = c :: rest := by
  simp [skipBlanks, notBlank]

theorem skipBlanks_append {blanks : List Char} (blank : ∀ c ∈ blanks, isBlank c)
    (text : List Char) : skipBlanks (blanks ++ text) = skipBlanks text := by
  rw [skipBlanks, List.dropWhile_append_of_pos blank, skipBlanks]

theorem eq_of_isBlank {c : Char} (blank : isBlank c) :
    c = ' ' ∨ c = '\n' ∨ c = '\t' ∨ c = '\r' := by
  simpa [isBlank, or_assoc] using blank

theorem goesOn_of_isBlank {c : Char} (blank : isBlank c) : goesOn c = false := by
  rcases eq_of_isBlank blank with rfl | rfl | rfl | rfl <;> decide

theorem delimited_append {blanks : List Char} (blank : ∀ c ∈ blanks, isBlank c)
    {text : List Char} (delimited : Delimited text) : Delimited (blanks ++ text) := by
  cases blanks with
  | nil => exact delimited
  | cons c others => exact delimited_cons.mpr (goesOn_of_isBlank (blank c List.mem_cons_self))

/-! ### Items -/

/-- The reader makes what is expected of a text, whatever delimited text follows, and the text
does not begin like the end of a container. -/
structure Reads (reader : Reader α) (close : Char) (text : List Char)
    (expected : Except Cause α) : Prop where
  begins : ∃ first others, text = first :: others ∧ isBlank first = false ∧ first ≠ close
  reads : ∀ rest, Delimited rest →
    outcome (reader (text ++ rest)) = expected.map fun result => (result, rest)

/-- A closing bracket is not mistaken for anything that may stand in its place. -/
structure Brackets.Closing (brackets : Brackets) : Prop where
  notBlank : isBlank brackets.close = false
  notComma : brackets.close ≠ ','
  delimits : goesOn brackets.close = false

theorem squareBrackets_closing : squareBrackets.Closing := ⟨by decide, by decide, by decide⟩

theorem curlyBrackets_closing : curlyBrackets.Closing := ⟨by decide, by decide, by decide⟩

section Loop

variable {brackets : Brackets} {item : Reader α} {text : β → List Char}
  {expected : β → Except Cause α} {before behind : List Char}

theorem delimited_moreText (closing : brackets.Closing)
    (blankBehind : ∀ c ∈ behind, isBlank c) (texts : List (List Char)) (rest : List Char) :
    Delimited (moreText brackets.close before behind texts ++ rest) := by
  cases texts with
  | nil =>
      rw [moreText, List.append_assoc]
      exact delimited_append blankBehind (delimited_cons.mpr closing.delimits)
  | cons text others => exact delimited_cons.mpr (by decide)

/-- The text behind the first item of a container is no shorter than the number of items in it, as
there is a comma in front of each. -/
theorem length_le_moreText (close : Char) (before behind : List Char)
    (texts : List (List Char)) :
    texts.length ≤ (moreText close before behind texts).length := by
  induction texts with
  | nil => simp
  | cons text others ih =>
      simp only [moreText, List.length_cons, List.length_append]
      omega

/-- A first item and the loop over the others come to what all of the items come to. -/
theorem outcome_cons (next : Reader (List α)) {first : Except Fault (α × List Char)}
    {x : β} {others : List β} {more rest : List Char}
    (head : outcome first = (expected x).map fun result => (result, more))
    (tail : outcome (next more) = (others.mapM expected).map fun results => (results, rest)) :
    outcome (do
        let (result, text) ← first
        let (results, text) ← next text
        return (result :: results, text)) =
      ((x :: others).mapM expected).map fun results => (results, rest) := by
  rw [outcome_bind, head, List.mapM_cons]
  cases expected x with
  | error cause => rfl
  | ok result =>
      change outcome (next more >>= fun found => pure (result :: found.1, found.2)) = _
      rw [outcome_bind, tail]
      cases others.mapM expected <;> rfl

theorem outcome_readMoreItems (closing : brackets.Closing)
    (blankBefore : ∀ c ∈ before, isBlank c) (blankBehind : ∀ c ∈ behind, isBlank c)
    {items : List β}
    (reads : ∀ x ∈ items, Reads item brackets.close (text x) (expected x))
    {bound : Nat} (enough : items.length ≤ bound) (rest : List Char) :
    outcome (readMoreItems brackets item bound
        (moreText brackets.close before behind (items.map text) ++ rest)) =
      (items.mapM expected).map fun results => (results, rest) := by
  induction items generalizing bound with
  | nil =>
      rw [List.map_nil, moreText, List.append_assoc, readMoreItems,
        skipBlanks_append blankBehind, List.singleton_append,
        skipBlanks_cons closing.notBlank]
      simp
      rfl
  | cons x others ih =>
      obtain ⟨bound, rfl⟩ : ∃ smaller, bound = smaller + 1 :=
        Nat.exists_eq_succ_of_ne_zero (by simp at enough; omega)
      obtain ⟨first, following, begins, notBlank, notClose⟩ :=
        (reads x List.mem_cons_self).begins
      have comma : skipBlanks
          (moreText brackets.close before behind ((x :: others).map text) ++ rest) =
            ',' :: (before ++ (text x ++
              (moreText brackets.close before behind (others.map text) ++ rest))) := by
        rw [List.map_cons, moreText, List.cons_append, List.cons_append, List.cons_append,
          skipBlanks_cons (by decide), List.append_assoc, List.append_assoc]
      have start : skipBlanks (before ++ (text x ++
          (moreText brackets.close before behind (others.map text) ++ rest))) =
            first :: (following ++
              (moreText brackets.close before behind (others.map text) ++ rest)) := by
        rw [skipBlanks_append blankBefore, begins, List.cons_append, skipBlanks_cons notBlank]
      rw [readMoreItems, comma]
      simp only [start, if_neg closing.notComma.symm, if_neg notClose, if_true]
      apply outcome_cons (readMoreItems brackets item bound)
      · rw [← List.cons_append, ← begins]
        exact (reads x List.mem_cons_self).reads _ (delimited_moreText closing blankBehind _ rest)
      · exact ih (fun y member => reads y (List.mem_cons_of_mem x member))
          (by simpa using enough)

/-- The loop over the items of a container reads them one after the other. -/
theorem outcome_readItems (closing : brackets.Closing)
    (blankBefore : ∀ c ∈ before, isBlank c) (blankBehind : ∀ c ∈ behind, isBlank c)
    {items : List β}
    (reads : ∀ x ∈ items, Reads item brackets.close (text x) (expected x))
    (rest : List Char) :
    outcome (readItems brackets item
        (itemsText brackets.close before behind (items.map text) ++ rest)) =
      (items.mapM expected).map fun results => (results, rest) := by
  rw [readItems]
  cases items with
  | nil =>
      rw [List.map_nil, itemsText, List.singleton_append, skipBlanks_cons closing.notBlank]
      simp
      rfl
  | cons x others =>
      obtain ⟨first, following, begins, notBlank, notClose⟩ :=
        (reads x List.mem_cons_self).begins
      have start : skipBlanks
          (itemsText brackets.close before behind ((x :: others).map text) ++ rest) =
            first :: (following ++
              (moreText brackets.close before behind (others.map text) ++ rest)) := by
        rw [List.map_cons, itemsText, List.append_assoc, List.append_assoc,
          skipBlanks_append blankBefore, begins, List.cons_append, skipBlanks_cons notBlank]
      simp only [start, if_neg notClose]
      apply outcome_cons fun text => readMoreItems brackets item text.length text
      · rw [← List.cons_append, ← begins]
        exact (reads x List.mem_cons_self).reads _ (delimited_moreText closing blankBehind _ rest)
      · apply outcome_readMoreItems closing blankBefore blankBehind
        · exact fun y member => reads y (List.mem_cons_of_mem x member)
        · have commas := length_le_moreText brackets.close before behind (others.map text)
          rw [List.length_append]
          rw [List.length_map] at commas
          omega

end Loop

end

end ConfTree.Json
