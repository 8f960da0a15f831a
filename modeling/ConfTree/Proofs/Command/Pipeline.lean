/-
Module: ConfTree.Proofs.Command.Pipeline
Purpose: Getting a value in two runs, the second one on what the first one prints.
Main exports:
  Value.read_line, Command.runOn_get, Command.get_pipelines_compose
-/
import ConfTree.Proofs.Command.Stages
import ConfTree.Proofs.Path.Parts
import ConfTree.Proofs.Value.Boxes
import ConfTree.Proofs.Value.Document

namespace ConfTree

/-!
A run prints the value at a path as JSON, and another run reads that and goes on from there.
The second run starts from the very value that the first one found: that is a part of the
value of a document, and so it has no boxes that would be lost, keeps its keys in order, and
is not too deep to be read again.  Only reals may come back changed.  What is left is that a
path may be cut at a dot.
-/

namespace Value

/-! ### Reading again -/

/-- The JSON form of a value without reals and boxes, with a line feed behind it, reads back
as that value. -/
theorem read_line (strategy : Strategy) {value : Value} (realFree : value.RealFree)
    (filedBy : value.FiledBy strategy) (wellFiled : value.WellFiled)
    (boxFree : value.Everywhere fun part => part.kind ≠ .boxed) (shallow : value.depth ≤ 127) :
    Value.read strategy (value.pretty ++ "\n") = .ok value := by
  have line : value.pretty ++ "\n" =
      String.ofList (Json.Layout.pretty.written 0 value.toJson ++ ['\n']) := by
    rw [pretty, Json.pretty, Json.Layout.written_pretty, String.ofList_append]
  have document : Json.read (value.pretty ++ "\n") = .ok value.toJson := by
    rw [line]
    apply Json.read_written_blanks Json.Layout.pretty (legible_toJson realFree wellFiled)
    · rw [depth_toJson]
      exact shallow
    · rw [List.forall_mem_singleton]
      decide
  rw [Value.read, document]
  exact (convert_toJson realFree filedBy wellFiled "").trans (by rw [stripped_of_boxFree boxFree])

/-- What a path finds in a value without reals that was read from a text reads back. -/
theorem read_line_of_resolve {strategy : Strategy} {text path : String} {value found : Value}
    (reads : Value.read strategy text = .ok value) (realFree : value.RealFree)
    (resolves : value.resolve path = .ok found) :
    Value.read strategy (found.pretty ++ "\n") = .ok found := by
  rw [Value.read] at reads
  cases document : Json.read text with
  | error error =>
      rw [document] at reads
      cases reads
  | ok json =>
      rw [document] at reads
      have converts := converts_of_ofJson reads
      have isPart := part_of_resolve resolves
      apply read_line strategy (realFree.part isPart) (converts.filedBy.part isPart)
        (converts.wellFiled.part isPart) (converts.boxFree.part isPart)
      calc found.depth
          ≤ value.depth := depth_le_of_part isPart
        _ ≤ json.depth := converts.depth_le
        _ ≤ 127 := Json.depth_le_of_read document

end Value

namespace Command

/-! ### Runs -/

section

variable {σ : Type}

/-- A run has printed a text and nothing else, or it has printed nothing and complained. -/
inductive EndsWith (run : Run σ) : Except Fault String → Prop where
  | text {text : String} (exitCode : run.exitCode = 0) (quiet : run.complaint = none)
      (printed : run.printed = text) : EndsWith run (.ok text)
  | complaint {fault : Fault} (exitCode : run.exitCode = 1) (complains : run.complaint = some fault)
      (printed : run.printed = "") : EndsWith run (.error fault)

theorem EndsWith.output {run : Run σ} {result : Except Fault String}
    (ends : EndsWith run result) : run.output = result := by
  cases ends with
  | text exitCode quiet printed => rw [Run.output, quiet, printed]
  | complaint exitCode complains printed => rw [Run.output, complains]

/-- Runs that end with the same text, or with complaints about the same failure, have the same exit
code and print the same. -/
theorem EndsWith.same {τ : Type} {run : Run σ} {other : Run τ} {result : Except Failure String}
    {fault otherFault : Failure → Fault} (ends : EndsWith run (result.mapError fault))
    (otherEnds : EndsWith other (result.mapError otherFault)) :
    run.exitCode = other.exitCode ∧ run.printed = other.printed := by
  cases result with
  | error failure =>
      obtain - | ⟨exitCode, -, printed⟩ := ends
      obtain - | ⟨otherCode, -, otherPrinted⟩ := otherEnds
      exact ⟨exitCode.trans otherCode.symm, printed.trans otherPrinted.symm⟩
  | ok text =>
      obtain ⟨exitCode, -, printed⟩ := ends
      obtain ⟨otherCode, -, otherPrinted⟩ := otherEnds
      exact ⟨exitCode.trans otherCode.symm, printed.trans otherPrinted.symm⟩

variable [FileSystem σ] {files : σ} {stdin : Except FileFault ByteArray} {input : Option String}
  {text : String} {value : Value}

/-- A run comes to what the work comes to, if that is to be printed. -/
theorem runOn_endsWith {command : Command} (toPrint : command.output = none)
    (takes : command.Takes files stdin text) :
    EndsWith (command.runOn files stdin) (command.perform text).result := by
  have attempted := run_attempt_of_takes (.start files stdin) takes
  cases result : (command.perform text).result with
  | error fault =>
      rw [result] at attempted
      rw [runOn_of_attempt_error attempted]
      exact .complaint rfl rfl rfl
  | ok made =>
      rw [result, finish, run_deliver_toPrint _ made toPrint] at attempted
      rw [runOn_of_attempt_ok attempted]
      exact .text rfl rfl String.empty_append

/-- What a command finds at a path, or why it finds nothing, is all that comes of it. -/
theorem runOn_get (path : String) (strategy : Strategy) (form : Format)
    (takes : (get path input strategy form).Takes files stdin text)
    (reads : Value.read strategy text = .ok value) :
    EndsWith ((get path input strategy form).runOn files stdin)
      (((value.resolve path).map (format form)).mapError (.unresolvable path)) := by
  have works : ((get path input strategy form).perform text).result =
      ((value.resolve path).map (format form)).mapError (.unresolvable path) := by
    simp only [perform, onDocument, reads, getWork]
    cases value.resolve path with
    | error failure => rfl
    | ok found => rfl
  rw [← works]
  exact runOn_endsWith rfl takes

end

/-- To get the value at one path and then, from what is printed as JSON, the value at another
path is to get the value at both paths with a dot between them: the exit codes and what is
printed at the end are the same, and where the second run fails, there is one failure behind
both. -/
theorem get_pipelines_compose {σ τ : Type} [FileSystem σ] [FileSystem τ] (first second : String)
    (input : Option String) (files : σ) (elsewhere : τ) (stdin : Except FileFault ByteArray)
    (form : Format) {text printed : String} {value : Value}
    (takes : (get first input .ordered .json).Takes files stdin text)
    (reads : Value.read .ordered text = .ok value) (realFree : value.RealFree)
    (prints : ((get first input .ordered .json).runOn files stdin).output = .ok printed) :
    let piped := (get second none .ordered form).runOn elsewhere (.ok printed.toUTF8)
    let direct := (get (first ++ "." ++ second) input .ordered form).runOn files stdin
    piped.exitCode = direct.exitCode ∧ piped.printed = direct.printed ∧
      ∀ fault, piped.output = .error fault → ∃ failure, fault = .unresolvable second failure ∧
        direct.output = .error (.unresolvable (first ++ "." ++ second) failure) := by
  intro piped direct
  -- The first run prints what it has found.
  rw [(runOn_get first .ordered .json takes reads).output] at prints
  cases resolves : value.resolve first with
  | error failure =>
      rw [resolves] at prints
      cases prints
  | ok found =>
      rw [resolves] at prints
      cases prints
      have pipedEnds : EndsWith piped
          (((found.resolve second).map (format form)).mapError (.unresolvable second)) :=
        runOn_get second .ordered form rfl (Value.read_line_of_resolve reads realFree resolves)
      have directEnds : EndsWith direct (((found.resolve second).map (format form)).mapError
          (.unresolvable (first ++ "." ++ second))) := by
        have both : value.resolve (first ++ "." ++ second) = found.resolve second := by
          rw [Value.resolve_append, resolves]
          rfl
        rw [← both]
        exact runOn_get _ .ordered form takes reads
      obtain ⟨sameExit, samePrinted⟩ := pipedEnds.same directEnds
      refine ⟨sameExit, samePrinted, ?_⟩
      rw [pipedEnds.output, directEnds.output]
      cases found.resolve second with
      | error failure =>
          rintro _ ⟨⟩
          exact ⟨failure, rfl, rfl⟩
      | ok last => exact nofun

/-- An item of an item, got in two runs and in one. -/
theorem get_pipelines_compose_items :
    let nowhere : Volume := ⟨.directory .all [], []⟩
    let printed := "[\n  7\n]\n"
    let piped := (get "-1" none .ordered .json).runOn nowhere (.ok printed.toUTF8)
    let direct := (get ("0" ++ "." ++ "-1") none .ordered .json).runOn nowhere (.ok "[[7]]".toUTF8)
    ((get "0" none .ordered .json).runOn nowhere (.ok "[[7]]".toUTF8)).output = .ok printed ∧
      piped.exitCode = direct.exitCode ∧ piped.printed = direct.printed := by
  intro nowhere printed piped direct
  have takes : (get "0" none .ordered .json).Takes nowhere (.ok "[[7]]".toUTF8) "[[7]]" := rfl
  have reads : Value.read .ordered "[[7]]" = .ok (.sequence [.sequence [.integer 7]]) := rfl
  have realFree : (Value.sequence [.sequence [.integer 7]]).RealFree := by
    refine .of_sequence nofun (List.forall_mem_singleton.mpr ?_)
    refine .of_sequence nofun (List.forall_mem_singleton.mpr ?_)
    exact .of_scalar rfl nofun
  have prints : ((get "0" none .ordered .json).runOn nowhere (.ok "[[7]]".toUTF8)).output =
      .ok printed := by
    rw [(runOn_get "0" .ordered .json takes reads).output, Value.resolve_dotless _ (by decide)]
    rfl
  obtain ⟨sameExit, samePrinted, _⟩ := get_pipelines_compose "0" "-1" none nowhere nowhere
    (.ok "[[7]]".toUTF8) .json takes reads realFree prints
  exact ⟨prints, sameExit, samePrinted⟩

end Command

end ConfTree
