/-
Module: ConfTree.Proofs.Command.Delivery
Purpose: A run changes one place, and only if all of it succeeds.
Main exports:
  Sink, Command.sink?, Command.Makes, Command.Delivers, Command.run_attempt_of_ready,
  Command.run_attempt_of_lacking, Command.run_all_or_nothing
-/
import ConfTree.Proofs.Command.Files
import ConfTree.Proofs.Command.Stages

namespace ConfTree

/-!
Standard output and the files are the places, or sinks, that a run could change.  Which of them
gets the result is settled by the command line and by the file to which its path leads; which text
it gets, by the command and by the document that is read.  So whether a run succeeds can be said
without running it: there must be a document to take, a text to make of it, and a system that lets
the text be delivered.  A run that lacks one of the three leaves all sinks as they were, and any
other run changes its own sink only.

A run prints and writes as it goes along, and what has been printed stays printed if a later step
fails.  That a failed run leaves nothing behind rests on the order of its steps, and on writes that
happen completely or fail without effect.
-/

/-- A place that a run could change. -/
inductive Sink (φ : Type) where
  | standardOutput
  | file (file : φ)

section

variable {σ φ : Type} (view : FileView σ φ) (before : Session σ)

/-- What a sink holds in a session. -/
def Sink.content? (session : Session σ) : Sink φ → Option ByteArray
  | .standardOutput => some session.printed.toUTF8
  | .file target => view.content? session.files target

/-- One sink has received a text, and all others are as they were before. -/
structure Session.Receives (sink : Sink φ) (text : String) (after : Session σ) : Prop where
  received : sink.content? view after = some text.toUTF8
  others : ∀ other, other ≠ sink → other.content? view after = other.content? view before

/-- Nothing has been printed, and no file has been changed. -/
structure Session.Keeps (after : Session σ) : Prop where
  printed : after.printed = before.printed
  files : ∀ file, view.content? after.files file = view.content? before.files file

end

namespace Command

variable {σ φ : Type}

/-! ### What a run needs -/

/-- The sink that a command is told to deliver to. -/
def sink? (view : FileView σ φ) (files : σ) (command : Command) : Option (Sink φ) :=
  match command.output with
  | none => some .standardOutput
  | some path => (view.file? files path).map .file

/-- The text is the complete result of the command on a document. -/
inductive Makes (document : String) : Command → String → Prop where
  | render {input output : Option String} {strategy : Strategy} {form : Format} {value : Value}
      (reads : Value.read strategy document = .ok value) :
      Makes document (.render input output strategy form) (format form value)
  | get {path : String} {input : Option String} {strategy : Strategy} {form : Format}
      {value found : Value} (reads : Value.read strategy document = .ok value)
      (resolves : value.resolve path = .ok found) :
      Makes document (.get path input strategy form) (format form found)
  | manifest {input output : Option String} {components : List Manifest.Component}
      (accepts : (Manifest.read document).outcome = .ok components) :
      Makes document (.manifest input output) ((Manifest.recordsToJson components).pretty ++ "\n")

variable [FileSystem σ]

/-- The text can be delivered: it is to be printed, or the system lets it be written. -/
def Delivers (files : σ) (command : Command) (text : String) : Prop :=
  ∀ path, command.output = some path → (FileSystem.write files path text.toUTF8).1 = .ok ()

/-! ### Stages of a run -/

variable {command : Command} {session : Session σ} {document text : String}

/-- A text that can be delivered reaches its sink and changes no other. -/
theorem run_deliver_of_delivers {view : FileView σ φ} (lawful : view.Lawful)
    (delivers : command.Delivers session.files text) (nothingPrinted : session.printed = "") :
    ∃ sink after, (deliver (Session.system σ) command text).run.run session = (.ok (), after) ∧
      command.sink? view session.files = some sink ∧ session.Receives view sink text after := by
  rw [sink?]
  cases toFile : command.output with
  | none =>
      refine ⟨.standardOutput, _, run_deliver_toPrint session text toFile, rfl, ?_, ?_⟩
      · rw [Sink.content?, nothingPrinted, String.empty_append]
      · intro other isOther
        cases other with
        | standardOutput => exact absurd rfl isOther
        | file target => rfl
  | some path =>
      have written := delivers path toFile
      have delivered := run_deliver_toFile session text toFile
      rw [written] at delivered
      obtain ⟨file, leads, received, others⟩ := lawful.write_succeeds written
      refine ⟨.file file, _, delivered, congrArg (Option.map Sink.file) leads, received, ?_⟩
      intro other isOther
      cases other with
      | standardOutput => rfl
      | file target => exact others target fun same => isOther (same ▸ rfl)

/-- A text that cannot be delivered changes no sink. -/
theorem run_deliver_of_not {view : FileView σ φ} (lawful : view.Lawful)
    (undelivered : ¬ command.Delivers session.files text) :
    ∃ fault after, (deliver (Session.system σ) command text).run.run session =
      (.error fault, after) ∧ session.Keeps view after := by
  simp only [Delivers, not_forall] at undelivered
  obtain ⟨path, toFile, refused⟩ := undelivered
  cases written : (FileSystem.write session.files path text.toUTF8).1 with
  | ok done => exact absurd written refused
  | error cause =>
      have delivered := run_deliver_toFile session text toFile
      rw [written] at delivered
      exact ⟨.unwritable path cause, _, delivered, rfl, lawful.write_fails written⟩

/-- Work on the value of a document comes to a text if there is such a value. -/
theorem onDocument_eq_ok_iff {strategy : Strategy} {work : Value → Work} :
    (onDocument strategy document work).result = .ok text ↔
      ∃ value, Value.read strategy document = .ok value ∧ (work value).result = .ok text := by
  rw [onDocument]
  cases Value.read strategy document with
  | error failure => simp
  | ok value => simp

theorem perform_eq_ok_iff :
    (command.perform document).result = .ok text ↔ Makes document command text := by
  cases command with
  | render input output strategy form =>
      rw [perform, onDocument_eq_ok_iff]
      constructor
      · rintro ⟨value, reads, ⟨⟩⟩
        exact .render reads
      · intro renders
        cases renders with
        | render reads => exact ⟨_, reads, rfl⟩
  | get path input strategy form =>
      rw [perform, onDocument_eq_ok_iff]
      constructor
      · rintro ⟨value, reads, gets⟩
        cases resolves : value.resolve path with
        | error failure => simp [getWork, resolves] at gets
        | ok found =>
            simp only [getWork, resolves, Except.ok.injEq] at gets
            exact gets ▸ .get reads resolves
      · intro gets
        cases gets with
        | get reads resolves => exact ⟨_, reads, by simp [getWork, resolves]⟩
  | manifest input output =>
      rw [perform, manifestWork]
      constructor
      · intro accepts
        cases outcome : (Manifest.read document).outcome with
        | error defect => simp [outcome] at accepts
        | ok components =>
            simp only [outcome, Except.ok.injEq] at accepts
            exact accepts ▸ .manifest outcome
      · intro checks
        cases checks with
        | manifest accepts => simp [accepts]

/-! ### Whole runs -/

variable {view : FileView σ φ}

/-- A run that has all it needs changes the sink of its command only. -/
theorem run_attempt_of_ready (lawful : view.Lawful) (session : Session σ)
    (takes : command.Takes session.files session.input document)
    (makes : Makes document command text) (delivers : command.Delivers session.files text)
    (nothingPrinted : session.printed = "") :
    ∃ sink after, (attempt (Session.system σ) command).run.run session = (.ok (), after) ∧
      command.sink? view session.files = some sink ∧ session.Receives view sink text after := by
  let told : Session σ :=
    { session with events := session.events ++ (command.perform document).events }
  have toldDelivers : command.Delivers told.files text := delivers
  obtain ⟨sink, after, delivered, isSink, received, others⟩ :=
    run_deliver_of_delivers lawful toldDelivers nothingPrinted
  refine ⟨sink, after, ?_, isSink, received, ?_⟩
  · rw [run_attempt_of_takes session takes, perform_eq_ok_iff.mpr makes]
    exact delivered
  · intro other isOther
    rw [others other isOther]
    cases other <;> rfl

/-- A run that lacks something fails and changes nothing. -/
theorem run_attempt_of_lacking (lawful : view.Lawful) (session : Session σ)
    (lacking : ¬ ∃ document text, command.Takes session.files session.input document ∧
      Makes document command text ∧ command.Delivers session.files text) :
    ∃ fault after, (attempt (Session.system σ) command).run.run session = (.error fault, after) ∧
      session.Keeps view after := by
  obtain ⟨outcome, taken, takesIff⟩ := run_take command session
  cases outcome with
  | error fault => exact ⟨fault, session, run_bind_of_error taken, rfl, fun _ => rfl⟩
  | ok document =>
      have takes := (takesIff document).mp rfl
      let told : Session σ :=
        { session with events := session.events ++ (command.perform document).events }
      rw [run_attempt_of_takes session takes]
      cases result : (command.perform document).result with
      | error fault => exact ⟨fault, told, rfl, rfl, fun _ => rfl⟩
      | ok text =>
          have makes := perform_eq_ok_iff.mp result
          have undelivered : ¬ command.Delivers told.files text := fun delivers =>
            lacking ⟨document, text, takes, makes, delivers⟩
          obtain ⟨fault, after, fails, keeps⟩ := run_deliver_of_not lawful undelivered
          exact ⟨fault, after, fails, keeps.printed, keeps.files⟩

/-- A run succeeds exactly if there is a document to take, a text to make of it, and a system that
lets that be delivered.  A run that fails, at whichever stage, has printed nothing and leaves every
file as it was.  A run that succeeds leaves the complete text in its sink, whatever that held before
and also if the document came from there, and leaves all other sinks as they were. -/
theorem run_all_or_nothing (lawful : view.Lawful) (command : Command) (files : σ)
    (input : Except FileFault ByteArray) :
    let run := command.runOn files input
    (run.exitCode = 0 ↔ ∃ document text, command.Takes files input document ∧
      Makes document command text ∧ command.Delivers files text) ∧
    (run.exitCode ≠ 0 →
      run.printed = "" ∧ ∀ file, view.content? run.files file = view.content? files file) ∧
    ∀ document text, command.Takes files input document → Makes document command text →
      command.Delivers files text →
        ∃ sink, command.sink? view files = some sink ∧
          sink.content? view run.toSession = some text.toUTF8 ∧
          ∀ other, other ≠ sink → other.content? view run.toSession =
            other.content? view (.start files input) := by
  intro run
  by_cases ready : ∃ document text, command.Takes files input document ∧
      Makes document command text ∧ command.Delivers files text
  · have succeeds : run.exitCode = 0 := by
      obtain ⟨document, text, takes, makes, delivers⟩ := ready
      obtain ⟨_, after, ran, _⟩ :=
        run_attempt_of_ready lawful (.start files input) takes makes delivers rfl
      rw [show run = ⟨after, 0⟩ from runOn_of_attempt_ok ran]
    refine ⟨⟨fun _ => ready, fun _ => succeeds⟩, fun fails => absurd succeeds fails, ?_⟩
    intro document text takes makes delivers
    obtain ⟨sink, after, ran, isSink, received, others⟩ :=
      run_attempt_of_ready lawful (.start files input) takes makes delivers rfl
    rw [show run = ⟨after, 0⟩ from runOn_of_attempt_ok ran]
    exact ⟨sink, isSink, received, others⟩
  · obtain ⟨fault, after, ran, keeps⟩ :=
      run_attempt_of_lacking lawful (.start files input) ready
    have failed : run = ⟨{ after with complaint := some fault }, 1⟩ := runOn_of_attempt_error ran
    have fails : run.exitCode ≠ 0 := by
      rw [failed]
      exact (by decide : (1 : UInt32) ≠ 0)
    refine ⟨⟨fun succeeds => absurd succeeds fails, fun has => absurd has ready⟩, fun _ => ?_, ?_⟩
    · rw [failed]
      exact ⟨keeps.printed, keeps.files⟩
    · intro document text takes makes delivers
      exact absurd ⟨document, text, takes, makes, delivers⟩ ready

/-- A document that is printed onto itself, along another path to the same file: one path goes
down from the root, the other one up from the directory in which the program works. -/
theorem run_all_or_nothing_onto_input :
    let data : FileTree := .directory .all [("a.json", .file .all "[1]".toUTF8)]
    let work : FileTree := .directory .all [("b.json", .file .all "[2]".toUTF8)]
    let volume : Volume := ⟨.directory .all [("data", data), ("work", work)], ["work"]⟩
    let command := render (some "/data/a.json") (some "..//data/./a.json") .ordered .json
    let run := command.runOn volume (.ok "".toUTF8)
    run.exitCode = 0 ∧ run.printed.toUTF8 = "".toUTF8 ∧
      run.files.root.contentAt? ["data", "a.json"] = some "[\n  1\n]\n".toUTF8 ∧
      run.files.root.contentAt? ["work", "b.json"] = some "[2]".toUTF8 := by
  intro data work volume command run
  have takes : command.Takes volume (.ok "".toUTF8) "[1]" := rfl
  have reads : Value.read .ordered "[1]" = .ok (.sequence [.integer 1]) := rfl
  have makes : Makes "[1]" command "[\n  1\n]\n" := .render reads
  have delivers : command.Delivers volume "[\n  1\n]\n" := by
    rintro _ ⟨⟩
    rfl
  have isSink : command.sink? Volume.view volume = some (.file ["data", "a.json"]) := rfl
  obtain ⟨succeeds, _, changes⟩ :=
    run_all_or_nothing Volume.view_lawful command volume (.ok "".toUTF8)
  obtain ⟨sink, isOwn, received, others⟩ := changes _ _ takes makes delivers
  obtain rfl : sink = .file ["data", "a.json"] := Option.some.inj (isOwn.symm.trans isSink)
  refine ⟨succeeds.mpr ⟨_, _, takes, makes, delivers⟩, ?_, received, ?_⟩
  · exact Option.some.inj (others .standardOutput nofun)
  · exact others (.file ["work", "b.json"]) (by simp)

end Command

end ConfTree
