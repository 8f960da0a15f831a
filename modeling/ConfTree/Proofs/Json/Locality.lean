/-
Module: ConfTree.Proofs.Json.Locality
Purpose: What is read from a text is read from any longer text, within any limit that is
  not too low.
Main exports:
  Json.Yields, Json.Extends, Json.readScalar_append, Json.extends_readItems,
  Json.extends_readValue
-/
import ConfTree.Proofs.Json.RoundTrip
import ConfTree.Proofs.Success
import Mathlib.Data.List.TakeWhile

namespace ConfTree.Json

/-!
A reader stops where the document ends, and looks no further than the next character.  So
whatever is put behind a text that it can read makes no difference, provided a number at
its end does not go on there.  The limit on open containers makes but one difference: a
reader with a lower one may refuse the text for its depth.
-/

/-! ### Strings -/

namespace Quoted

theorem andThen_append {c : Char} {reading longer : Except Fault (List Char × List Char)}
    {chars rest more : List Char} (reads : andThen c reading = .ok (chars, rest))
    (following : ∀ {chars}, reading = .ok (chars, rest) → longer = .ok (chars, rest ++ more)) :
    andThen c longer = .ok (chars, rest ++ more) := by
  cases reading with
  | error fault => cases reads
  | ok found =>
      obtain ⟨others, behind⟩ := found
      cases reads
      rw [following rfl]
      rfl

theorem readBody_append {text chars rest : List Char} (reads : readBody text = .ok (chars, rest))
    (more : List Char) : readBody (text ++ more) = .ok (chars, rest ++ more) := by
  fun_induction readBody text generalizing chars with
  | case2 behind =>
      cases reads
      rfl
  | case7 a b c d first unitFirst notTrailing leading a' b' c' d' after second unitSecond
      trailing ih =>
      simp only [List.cons_append]
      rw [readBody, unitFirst]
      simp only [notTrailing, leading, if_true, unitSecond, trailing]
      exact andThen_append reads ih
  | case10 a b c d behind unit isUnit notTrailing notLeading ih =>
      simp only [List.cons_append]
      rw [readBody, isUnit]
      simp only [notTrailing, notLeading]
      exact andThen_append reads ih
  | case12 c behind notUnit notU named isNamed ih =>
      have escaped : readBody ('\\' :: c :: (behind ++ more)) =
          andThen named (readBody (behind ++ more)) := by
        rw [readBody, if_neg notU, isNamed]
        intro _ _ _ _ _ isU
        exact absurd isU notU
      exact escaped.trans (andThen_append reads ih)
  | case15 c behind notQuote notLast notUnit notEscape notControl ih =>
      have notBackslash : c ≠ '\\' := by
        intro backslash
        cases behind with
        | nil => exact notLast backslash rfl
        | cons next others => exact notEscape next others backslash rfl
      rw [List.cons_append, readBody_plain notQuote notBackslash notControl]
      exact andThen_append reads ih
  | _ => cases reads

/-- A string is read up to its closing quote, whatever stands behind that. -/
theorem read_append {text : List Char} {content : String} {rest : List Char}
    (reads : read text = .ok (content, rest)) (more : List Char) :
    read (text ++ more) = .ok (content, rest ++ more) := by
  rw [read] at reads ⊢
  cases body : readBody text with
  | error fault => rw [body] at reads; cases reads
  | ok found =>
      obtain ⟨chars, behind⟩ := found
      rw [body] at reads
      cases reads
      rw [readBody_append body more]

end Quoted

/-! ### Numbers -/

namespace Literal

/-- A run of digits ends where it did, or where the text ended. -/
theorem takeDigits_longer {text digits rest : List Char} (taken : takeDigits text = (digits, rest))
    {more : List Char} (delimited : rest = [] → Delimited more) :
    takeDigits (text ++ more) = (digits, rest ++ more) := by
  induction text generalizing digits with
  | nil =>
      cases taken
      exact takeDigits_append (List.forall_mem_nil _) (delimited rfl).stopsDigits
  | cons c others ih =>
      by_cases isDigit : c.isDigit
      · have step : ∀ text, takeDigits (c :: text) =
            (c :: (takeDigits text).1, (takeDigits text).2) := by
          intro text
          simp [takeDigits, isDigit]
        rw [step] at taken
        cases taken
        rw [List.cons_append, step, ih rfl]
        rfl
      · have stop : ∀ text, takeDigits (c :: text) = ([], c :: text) := by
          intro text
          simp [takeDigits, isDigit]
        rw [stop] at taken
        cases taken
        exact stop (others ++ more)

theorem readWhole_append {text digits rest : List Char}
    (reads : readWhole text = .ok (digits, rest)) {more : List Char}
    (delimited : rest = [] → Delimited more) :
    readWhole (text ++ more) = .ok (digits, rest ++ more) := by
  cases text with
  | nil => cases reads
  | cons c others =>
      by_cases zero : c = '0'
      · rw [zero] at reads ⊢
        cases others with
        | nil =>
            cases reads
            exact readWhole_append_of_whole .zero (delimited rfl).stopsDigits
        | cons d after =>
            by_cases isDigit : d.isDigit
            · simp [readWhole, isDigit] at reads
            · have alone : ∀ text, readWhole ('0' :: d :: text) = .ok (['0'], d :: text) := by
                intro text
                simp [readWhole, isDigit]
              rw [alone] at reads
              cases reads
              exact alone (after ++ more)
      · by_cases isDigit : c.isDigit
        · have run : ∀ text, readWhole (c :: text) =
              .ok (c :: (takeDigits text).1, (takeDigits text).2) := by
            intro text
            rw [readWhole, if_pos isDigit]
            exact zero
          rw [run] at reads
          cases reads
          rw [List.cons_append, run, takeDigits_longer rfl delimited]
          rfl
        · rw [readWhole, if_neg isDigit] at reads
          · cases reads
          · exact zero

theorem readFraction_append {text rest : List Char} {fraction : Option (List Char)}
    (reads : readFraction text = .ok (fraction, rest)) {more : List Char}
    (delimited : rest = [] → Delimited more) :
    readFraction (text ++ more) = .ok (fraction, rest ++ more) := by
  cases text with
  | nil =>
      cases reads
      exact readFraction_of_delimited (delimited rfl)
  | cons c others =>
      by_cases point : c = '.'
      · rw [point] at reads ⊢
        cases taken : takeDigits others with
        | mk digits behind =>
            rw [readFraction, taken] at reads
            cases digits with
            | nil => cases behind <;> cases reads
            | cons digit digits =>
                cases reads
                rw [List.cons_append, readFraction, takeDigits_longer taken delimited]
      · have none : ∀ text, readFraction (c :: text) = .ok (none, c :: text) := by
          intro text
          rw [readFraction]
          intro behind same
          exact point (List.cons.inj same).1
        rw [none] at reads
        cases reads
        exact none (others ++ more)

theorem readExponentDigits_append {below : Bool} {text rest : List Char}
    {exponent : Option (Bool × List Char)}
    (reads : readExponentDigits below text = .ok (exponent, rest)) {more : List Char}
    (delimited : rest = [] → Delimited more) :
    readExponentDigits below (text ++ more) = .ok (exponent, rest ++ more) := by
  cases taken : takeDigits text with
  | mk digits behind =>
      rw [readExponentDigits, taken] at reads
      cases digits with
      | nil => cases behind <;> cases reads
      | cons digit digits =>
          cases reads
          rw [readExponentDigits, takeDigits_longer taken delimited]

theorem readExponent_append {text rest : List Char} {exponent : Option (Bool × List Char)}
    (reads : readExponent text = .ok (exponent, rest)) {more : List Char}
    (delimited : rest = [] → Delimited more) :
    readExponent (text ++ more) = .ok (exponent, rest ++ more) := by
  cases text with
  | nil =>
      cases reads
      exact readExponent_of_delimited (delimited rfl)
  | cons c others =>
      by_cases letter : c = 'e' ∨ c = 'E'
      · cases others with
        | nil =>
            simp only [readExponent, if_pos letter] at reads
            cases reads
        | cons sign after =>
            by_cases minus : sign = '-'
            · simp only [readExponent, if_pos letter, minus, List.cons_append] at reads ⊢
              exact readExponentDigits_append reads delimited
            · by_cases plus : sign = '+'
              · simp only [readExponent, if_pos letter, plus, List.cons_append] at reads ⊢
                exact readExponentDigits_append reads delimited
              · have unsigned : ∀ text, readExponent (c :: sign :: text) =
                    readExponentDigits false (sign :: text) := by
                  intro text
                  simp only [readExponent, if_pos letter]
                  split <;> simp_all
                rw [unsigned] at reads
                exact (unsigned (after ++ more)).trans (readExponentDigits_append reads delimited)
      · have none : ∀ text, readExponent (c :: text) = .ok (none, c :: text) := by
          intro text
          simp only [readExponent, if_neg letter]
        rw [none] at reads
        cases reads
        exact none (others ++ more)

theorem scanBehindSign_append {negative : Bool} {text rest : List Char} {literal : Literal}
    (reads : scanBehindSign negative text = .ok (literal, rest)) {more : List Char}
    (delimited : rest = [] → Delimited more) :
    scanBehindSign negative (text ++ more) = .ok (literal, rest ++ more) := by
  rw [scanBehindSign, bind_eq_ok_iff] at reads
  obtain ⟨⟨whole, afterWhole⟩, readsWhole, reads⟩ := reads
  obtain ⟨⟨fraction, afterFraction⟩, readsFraction, reads⟩ := bind_eq_ok_iff.mp reads
  obtain ⟨⟨exponent, afterExponent⟩, readsExponent, reads⟩ := bind_eq_ok_iff.mp reads
  cases reads
  -- A part that takes the text to its end leaves nothing for the parts behind it.
  have behindFraction : afterFraction = [] → rest = [] := by
    rintro rfl
    cases readsExponent
    rfl
  have behindWhole : afterWhole = [] → rest = [] := by
    rintro rfl
    cases readsFraction
    exact behindFraction rfl
  rw [scanBehindSign,
    readWhole_append readsWhole fun ends => delimited (behindWhole ends)]
  simp only [bind, Except.bind]
  rw [readFraction_append readsFraction fun ends => delimited (behindFraction ends)]
  simp only
  rw [readExponent_append readsExponent delimited]
  rfl

/-- The parts of a literal are read up to where they were, or where the text ended. -/
theorem scan_append {text rest : List Char} {literal : Literal}
    (reads : scan text = .ok (literal, rest)) {more : List Char}
    (delimited : rest = [] → Delimited more) :
    scan (text ++ more) = .ok (literal, rest ++ more) := by
  cases text with
  | nil => cases reads
  | cons c others =>
      by_cases minus : c = '-'
      · rw [minus, scan_minus] at reads
        rw [minus, List.cons_append, scan_minus]
        exact scanBehindSign_append reads delimited
      · rw [scan_unsigned minus] at reads
        rw [List.cons_append, scan_unsigned minus]
        exact scanBehindSign_append reads delimited

theorem read_append {text rest : List Char} {number : Json}
    (reads : read text = .ok (number, rest)) {more : List Char}
    (delimited : rest = [] → Delimited more) :
    read (text ++ more) = .ok (number, rest ++ more) := by
  rw [read, bind_eq_ok_iff] at reads
  obtain ⟨⟨literal, behind⟩, scanned, evaluated⟩ := reads
  cases value : literal.value with
  | error unread => simp only [value] at evaluated; cases evaluated
  | ok found =>
      simp only [value] at evaluated
      cases evaluated
      rw [read, scan_append scanned delimited]
      simp only [bind, Except.bind, value]
      rfl

end Literal

/-! ### Scalars -/

theorem readWord_append {letters text rest : List Char} (reads : readWord letters text = .ok rest)
    (more : List Char) : readWord letters (text ++ more) = .ok (rest ++ more) := by
  induction letters generalizing text with
  | nil =>
      cases reads
      rfl
  | cons letter letters ih =>
      cases text with
      | nil => cases reads
      | cons c others =>
          by_cases same : c = letter
          · rw [readWord, if_pos same] at reads
            rw [List.cons_append, readWord, if_pos same]
            exact ih reads
          · rw [readWord, if_neg same] at reads
            cases reads

/-- A document that is a fixed word is read up to the end of the word, whatever stands behind it. -/
theorem readWord_bind_append {letters text rest : List Char} {word json : Json}
    (reads : (do
      let rest ← readWord letters text
      return (word, rest)) = Except.ok (json, rest)) (more : List Char) :
    (do
      let rest ← readWord letters (text ++ more)
      return (word, rest)) = Except.ok (json, rest ++ more) := by
  obtain ⟨behind, readsWord, result⟩ := bind_eq_ok_iff.mp reads
  cases result
  rw [readWord_append readsWord more]
  rfl

/-- A scalar is read up to its end, if a number does not go on behind the text. -/
theorem readScalar_append {text rest : List Char} {json : Json}
    (reads : readScalar text = .ok (json, rest)) {more : List Char}
    (delimited : rest = [] → Delimited more) :
    readScalar (text ++ more) = .ok (json, rest ++ more) := by
  fun_cases readScalar text with
  | case1 => cases reads
  | case2 behind =>
      obtain ⟨⟨content, after⟩, readsContent, result⟩ := bind_eq_ok_iff.mp reads
      cases result
      rw [List.cons_append, readScalar, Quoted.read_append readsContent more]
      rfl
  | case3 behind => exact readWord_bind_append reads more
  | case4 behind => exact readWord_bind_append reads more
  | case5 behind => exact readWord_bind_append reads more
  | case6 c behind notQuote notN notT notF begins =>
      have number : ∀ text, readScalar (c :: text) = Literal.read (c :: text) := by
        intro text
        rw [readScalar, if_pos begins] <;> assumption
      rw [number] at reads
      exact (number (behind ++ more)).trans (Literal.read_append reads delimited)
  | case7 c behind notQuote notN notT notF notBegins =>
      rw [readScalar, if_neg notBegins] at reads
      · cases reads
      all_goals assumption

/-! ### Longer texts and other limits -/

section Readers

variable {α β : Type} {mayRefuse : Prop}

/-- The reading gives that result and leaves that rest, unless it may refuse the text for
its depth, and does. -/
def Yields (mayRefuse : Prop) (reading : Except Fault (α × List Char)) (result : α)
    (rest : List Char) : Prop :=
  reading = .ok (result, rest) ∨ mayRefuse ∧ outcome reading = .error .tooDeep

/-- What the first reader reads from a text the second one reads from any longer text. -/
def Extends (mayRefuse : Prop) (reader longer : Reader α) : Prop :=
  ∀ ⦃text rest : List Char⦄ ⦃result : α⦄, reader text = .ok (result, rest) →
    ∀ more : List Char, (rest = [] → Delimited more) →
      Yields mayRefuse (longer (text ++ more)) result (rest ++ more)

theorem Yields.mono {mayRefuse' : Prop} (implies : mayRefuse → mayRefuse')
    {reading : Except Fault (α × List Char)} {result : α} {rest : List Char}
    (yields : Yields mayRefuse reading result rest) : Yields mayRefuse' reading result rest :=
  yields.imp id fun ⟨may, refused⟩ => ⟨implies may, refused⟩

theorem Extends.mono {mayRefuse' : Prop} (implies : mayRefuse → mayRefuse')
    {reader longer : Reader α} (further : Extends mayRefuse reader longer) :
    Extends mayRefuse' reader longer :=
  fun _ _ _ reads more delimited => (further reads more delimited).mono implies

/-- Steps of reading yield what the steps after the first one yield on its result. -/
theorem Yields.bind {first : Except Fault (α × List Char)}
    {next : α × List Char → Except Fault (β × List Char)} {found : α} {result : β}
    {behind rest : List Char} (yields : Yields mayRefuse first found behind)
    (following : Yields mayRefuse (next (found, behind)) result rest) :
    Yields mayRefuse (first >>= next) result rest := by
  rcases yields with reads | ⟨may, refused⟩
  · rw [reads]
    exact following
  · refine .inr ⟨may, ?_⟩
    rw [outcome_bind, refused]
    rfl

theorem skipBlanks_longer {text behind : List Char} {c : Char}
    (start : skipBlanks text = c :: behind) (more : List Char) :
    skipBlanks (text ++ more) = c :: (behind ++ more) := by
  rw [skipBlanks] at start ⊢
  rw [List.dropWhile_append, start]
  rfl

/-! ### Items -/

section Items

variable {brackets : Brackets} {item longer : Reader α}

theorem readMoreItems_close {text rest : List Char}
    (start : skipBlanks text = brackets.close :: rest) (bound : Nat) :
    readMoreItems brackets item bound text = .ok ([], rest) := by
  rw [readMoreItems, start]
  exact if_pos rfl

/-- Behind a comma there is one more item. -/
theorem readMoreItems_comma (closing : brackets.Closing) {text behind after : List Char}
    {c : Char} (start : skipBlanks text = ',' :: behind) (next : skipBlanks behind = c :: after)
    (notClose : c ≠ brackets.close) (bound : Nat) :
    readMoreItems brackets item (bound + 1) text =
      item (c :: after) >>= fun found =>
        readMoreItems brackets item bound found.2 >>= fun others =>
          .ok (found.1 :: others.1, others.2) := by
  rw [readMoreItems, start]
  simp only [if_neg closing.notComma.symm, if_true, next, if_neg notClose]
  rfl

/-- How the loop goes through the items of a text that it can read. -/
inductive ReadsMore (brackets : Brackets) (item : Reader α) :
    List Char → List α → List Char → Prop
  | close {text rest : List Char} (start : skipBlanks text = brackets.close :: rest) :
      ReadsMore brackets item text [] rest
  | comma {text behind after afterItem rest : List Char} {c : Char} {first : α}
      {others : List α} (start : skipBlanks text = ',' :: behind)
      (next : skipBlanks behind = c :: after) (notClose : c ≠ brackets.close)
      (readsItem : item (c :: after) = .ok (first, afterItem)) :
      ReadsMore brackets item afterItem others rest →
        ReadsMore brackets item text (first :: others) rest

theorem ReadsMore.not_nil {text rest : List Char} {items : List α}
    (reads : ReadsMore brackets item text items rest) : text ≠ [] := by
  rintro rfl
  cases reads with
  | close start => cases start
  | comma start => cases start

theorem readsMore_of_eq_ok {bound : Nat} {text rest : List Char} {items : List α}
    (reads : readMoreItems brackets item bound text = .ok (items, rest)) :
    ReadsMore brackets item text items rest ∧ items.length ≤ bound := by
  fun_induction readMoreItems brackets item bound text generalizing items
  case case2 start =>
    cases reads
    exact ⟨.close start, Nat.zero_le _⟩
  case case6 text behind next after following notClose bound start _ ih =>
    obtain ⟨⟨first, afterItem⟩, readsItem, reads⟩ := bind_eq_ok_iff.mp reads
    obtain ⟨⟨others, behindOthers⟩, readsOthers, result⟩ := bind_eq_ok_iff.mp reads
    cases result
    obtain ⟨goesOn, enough⟩ := ih afterItem readsOthers
    exact ⟨.comma start following notClose readsItem goesOn, Nat.succ_le_succ enough⟩
  all_goals cases reads

theorem yields_readMoreItems (closing : brackets.Closing)
    (further : Extends mayRefuse item longer) {text rest : List Char} {items : List α}
    (reads : ReadsMore brackets item text items rest) {bound : Nat}
    (enough : items.length ≤ bound) (more : List Char) :
    Yields mayRefuse (readMoreItems brackets longer bound (text ++ more)) items
      (rest ++ more) := by
  induction reads generalizing bound with
  | close start => exact .inl (readMoreItems_close (skipBlanks_longer start more) bound)
  | comma start next notClose readsItem following ih =>
      obtain ⟨bound, rfl⟩ : ∃ smaller, bound = smaller + 1 :=
        Nat.exists_eq_succ_of_ne_zero (Nat.ne_zero_of_lt enough)
      rw [readMoreItems_comma closing (skipBlanks_longer start more)
        (skipBlanks_longer next more) notClose]
      have yieldsItem := further readsItem more fun ends => absurd ends following.not_nil
      apply yieldsItem.bind
      apply (ih (Nat.le_of_succ_le_succ enough)).bind
      exact .inl rfl

theorem readItems_close {text rest : List Char}
    (start : skipBlanks text = brackets.close :: rest) :
    readItems brackets item text = .ok ([], rest) := by
  rw [readItems, start]
  exact if_pos rfl

theorem readItems_first {text after : List Char} {c : Char}
    (start : skipBlanks text = c :: after) (notClose : c ≠ brackets.close) :
    readItems brackets item text =
      item (c :: after) >>= fun found =>
        readMoreItems brackets item found.2.length found.2 >>= fun others =>
          .ok (found.1 :: others.1, others.2) := by
  rw [readItems, start]
  simp only [if_neg notClose]
  rfl

/-- The items of a container are read from a longer text as from a text that ends behind
its closing bracket. -/
theorem extends_readItems (closing : brackets.Closing) (further : Extends mayRefuse item longer) :
    Extends mayRefuse (readItems brackets item) (readItems brackets longer) := by
  intro text rest items reads more _
  cases start : skipBlanks text with
  | nil =>
      rw [readItems, start] at reads
      cases reads
  | cons c after =>
      have longerStart := skipBlanks_longer start more
      by_cases closes : c = brackets.close
      · rw [closes] at start longerStart
        rw [readItems_close start] at reads
        cases reads
        exact .inl (readItems_close longerStart)
      · rw [readItems_first start closes] at reads
        obtain ⟨⟨first, afterItem⟩, readsItem, reads⟩ := bind_eq_ok_iff.mp reads
        obtain ⟨⟨others, behindOthers⟩, readsOthers, result⟩ := bind_eq_ok_iff.mp reads
        cases result
        obtain ⟨following, enough⟩ := readsMore_of_eq_ok readsOthers
        rw [readItems_first longerStart closes]
        have yieldsItem := further readsItem more fun ends => absurd ends following.not_nil
        apply yieldsItem.bind
        have longEnough : others.length ≤ (afterItem ++ more).length := by
          rw [List.length_append]
          exact Nat.le_add_right_of_le enough
        apply (yields_readMoreItems closing further following longEnough more).bind
        exact .inl rfl

end Items

/-! ### Members and documents -/

theorem readColon_append {text rest : List Char} (reads : readColon text = .ok rest)
    (more : List Char) : readColon (text ++ more) = .ok (rest ++ more) := by
  cases start : skipBlanks text with
  | nil =>
      rw [readColon, start] at reads
      cases reads
  | cons c behind =>
      rw [readColon, start] at reads
      rw [readColon, skipBlanks_longer start more]
      by_cases colon : c = ':'
      · simp only [if_pos colon] at reads ⊢
        cases reads
        rfl
      · simp only [if_neg colon] at reads
        cases reads

/-- Behind its name and a colon a member is its value. -/
theorem readMember_quote {value : Reader α} {behind afterName afterColon : List Char}
    {name : String} (readsName : Quoted.read behind = .ok (name, afterName))
    (readsColon : readColon afterName = .ok afterColon) :
    readMember value ('"' :: behind) =
      value afterColon >>= fun found => .ok ((name, found.1), found.2) := by
  rw [readMember, readsName]
  simp only [bind, Except.bind, readsColon]
  rfl

theorem extends_readMember {value longer : Reader α} (further : Extends mayRefuse value longer) :
    Extends mayRefuse (readMember value) (readMember longer) := by
  intro text rest member reads more delimited
  fun_cases readMember value text with
  | case1 behind =>
      obtain ⟨⟨name, afterName⟩, readsName, reads⟩ := bind_eq_ok_iff.mp reads
      obtain ⟨afterColon, readsColon, reads⟩ := bind_eq_ok_iff.mp reads
      obtain ⟨⟨found, afterValue⟩, readsValue, result⟩ := bind_eq_ok_iff.mp reads
      cases result
      rw [List.cons_append, readMember_quote (Quoted.read_append readsName more)
        (readColon_append readsColon more)]
      apply (further readsValue more delimited).bind
      exact .inl rfl
  | case2 =>
      rw [readMember] at reads
      · cases reads
      · assumption

end Readers

theorem readValue_start {text start : List Char} (begins : skipBlanks text = start)
    (limit : Nat) : readValue limit text = readValue limit start := by
  have blank : ∀ c ∈ text.takeWhile isBlank, isBlank c := fun c => List.mem_takeWhile_imp
  have parts : text = text.takeWhile isBlank ++ start := by
    rw [← begins, skipBlanks, List.takeWhile_append_dropWhile]
  conv_lhs => rw [parts]
  exact readValue_blanks blank limit start

theorem isBlank_of_skipBlanks {text behind : List Char} {c : Char}
    (start : skipBlanks text = c :: behind) : isBlank c = false := by
  have first := List.head?_dropWhile_not isBlank text
  rw [skipBlanks] at start
  rw [start] at first
  exact first

/-- A container is read from a longer text if its items are, within every limit below. -/
theorem yields_container {α : Type} {brackets : Brackets} (closing : brackets.Closing)
    (build : List α → Json) {opening : Char} {item : Nat → Reader α}
    (refused : ∀ text, outcome (readValue 0 (opening :: text)) = .error .tooDeep)
    (opened : ∀ limit text, readValue (limit + 1) (opening :: text) =
      readItems brackets (item limit) text >>= fun found => .ok (build found.1, found.2))
    {limit other : Nat}
    (further : ∀ inner < limit, ∀ lower, Extends (lower < inner) (item inner) (item lower))
    {behind rest more : List Char} {json : Json}
    (reads : readValue limit (opening :: behind) = .ok (json, rest))
    (delimited : rest = [] → Delimited more) :
    Yields (other < limit) (readValue other (opening :: (behind ++ more))) json
      (rest ++ more) := by
  cases limit with
  | zero =>
      have nothing := refused behind
      rw [reads] at nothing
      cases nothing
  | succ limit =>
      cases other with
      | zero => exact .inr ⟨Nat.succ_pos limit, refused _⟩
      | succ other =>
          rw [opened] at reads ⊢
          obtain ⟨⟨items, afterItems⟩, readsItems, result⟩ := bind_eq_ok_iff.mp reads
          cases result
          have inner := Extends.mono Nat.succ_lt_succ (further limit (Nat.lt_succ_self limit) other)
          apply (extends_readItems closing inner readsItems more delimited).bind
          exact .inl rfl

/-- A document is read from a longer text as from a text that ends behind it, and within
any limit, unless that is lower and the document too deep for it. -/
theorem extends_readValue (limit other : Nat) :
    Extends (other < limit) (readValue limit) (readValue other) := by
  induction limit using Nat.strongRecOn generalizing other with
  | ind limit ih =>
  intro text rest json reads more delimited
  cases start : skipBlanks text with
  | nil =>
      rw [readValue_start start] at reads
      cases limit <;> cases reads
  | cons c behind =>
      have notBlank := isBlank_of_skipBlanks start
      rw [readValue_start start] at reads
      rw [readValue_start (skipBlanks_longer start more)]
      by_cases square : c = '['
      · rw [square] at reads ⊢
        exact yields_container squareBrackets_closing .array (fun _ => rfl) readValue_array ih
          reads delimited
      · by_cases curly : c = '\x7b'
        · rw [curly] at reads ⊢
          have members : ∀ inner < limit, ∀ lower, Extends (lower < inner)
              (readMember (readValue inner)) (readMember (readValue lower)) :=
            fun inner below lower => extends_readMember (ih inner below lower)
          exact yields_container curlyBrackets_closing (fun read => .object (ofMembers read))
            (fun _ => rfl) readValue_object members reads delimited
        · rw [readValue_scalar notBlank square curly] at reads ⊢
          exact .inl (readScalar_append reads delimited)

end ConfTree.Json
