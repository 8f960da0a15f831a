/-
Module: ConfTree.Proofs.Command.Stages
Purpose: What the steps of a run do to its session.
Main exports:
  decode_eq_ok_iff, Command.Takes, Command.run_take, Command.run_tell,
  Command.run_deliver_toPrint, Command.run_deliver_toFile, Command.run_attempt_of_takes,
  Command.runOn_of_attempt_ok, Command.runOn_of_attempt_error
-/
import ConfTree.Command.Run

namespace ConfTree

/-!
A run goes through its steps in a session, which each of them may change.  One equation says what a
step comes to and which session it leaves; two steps are put together by the equation of the first,
and a step that fails ends the run with the session as it has left it.
-/

/-! ### Texts -/

theorem decode_toUTF8 (text : String) : decode text.toUTF8 = .ok text := by
  have decoded : String.fromUTF8? text.toUTF8 = some text := by
    rw [String.fromUTF8?, String.toUTF8_eq_toByteArray, dif_pos text.isValidUTF8]
    rfl
  rw [decode, decoded]

/-- Bytes are the text whose form in UTF-8 they are. -/
theorem decode_eq_ok_iff {bytes : ByteArray} {text : String} :
    decode bytes = .ok text ↔ bytes = text.toUTF8 := by
  constructor
  · intro decodes
    rw [decode, String.fromUTF8?] at decodes
    by_cases valid : bytes.IsValidUTF8
    · rw [dif_pos valid] at decodes
      cases decodes
      rfl
    · rw [dif_neg valid] at decodes
      cases decodes
  · rintro rfl
    exact decode_toUTF8 text

namespace Command

/-! ### Steps -/

section

variable {S ε α β : Type} {first : ExceptT ε (StateM S) α} {next : α → ExceptT ε (StateM S) β}
  {before between : S}

theorem run_bind_of_ok {result : α} (succeeds : first.run.run before = (.ok result, between)) :
    (first >>= next).run.run before = (next result).run.run between := by
  rw [ExceptT.run_bind, StateT.run_bind, succeeds]
  rfl

theorem run_bind_of_error {fault : ε} (fails : first.run.run before = (.error fault, between)) :
    (first >>= next).run.run before = (.error fault, between) := by
  rw [ExceptT.run_bind, StateT.run_bind, fails]
  rfl

end

variable {σ : Type} [FileSystem σ] {command : Command}

/-! ### Stages -/

/-- The bytes in the input file, or else on standard input. -/
def bytes (files : σ) (input : Except FileFault ByteArray) (command : Command) :
    Except FileFault ByteArray :=
  match command.input with
  | none => input
  | some path => FileSystem.read files path

/-- The document is the text that a command reads. -/
def Takes (files : σ) (input : Except FileFault ByteArray) (command : Command)
    (document : String) : Prop :=
  bytes files input command = .ok document.toUTF8

/-- Bytes are read without any effect. -/
theorem run_readBytes {ε : Type} (command : Command) (session : Session σ) :
    (liftM (readBytes (Session.system σ) command) : ExceptT ε (StateM (Session σ)) _).run.run session =
      (.ok (bytes session.files session.input command), session) := by
  rw [readBytes, bytes]
  cases command.input <;> rfl

/-- What a command takes is settled before anything is done. -/
theorem run_take (command : Command) (session : Session σ) :
    ∃ outcome, (take (Session.system σ) command).run.run session = (outcome, session) ∧
      ∀ document, outcome = .ok document ↔ command.Takes session.files session.input document := by
  rw [take, run_bind_of_ok (run_readBytes command session)]
  simp only [Takes]
  cases bytes session.files session.input command with
  | error fault => exact ⟨.error (.unreadable command.input fault), rfl, fun _ => ⟨nofun, nofun⟩⟩
  | ok bytes =>
      simp only [Except.ok.injEq, ← decode_eq_ok_iff]
      simp only [bind, Except.bind]
      cases decode bytes with
      | error fault =>
          exact ⟨.error (.unreadable command.input fault), rfl, fun _ => ⟨nofun, nofun⟩⟩
      | ok text => exact ⟨.ok text, rfl, fun _ => by simp⟩

/-- What is told of the work is added to what was told before. -/
theorem run_tell {ε : Type} (events : List Event) (session : Session σ) :
    (events.forM fun event => (liftM ((Session.system σ).tell event) :
      ExceptT ε (StateM (Session σ)) Unit)).run.run session =
      (.ok (), { session with events := session.events ++ events }) := by
  induction events generalizing session with
  | nil =>
      rw [List.append_nil]
      rfl
  | cons event rest ih =>
      have told : (liftM ((Session.system σ).tell event) :
          ExceptT ε (StateM (Session σ)) Unit).run.run session =
          (.ok (), { session with events := session.events ++ [event] }) := rfl
      rw [List.forM, run_bind_of_ok told, ih, List.append_assoc]
      rfl

/-- A write to a file is the write of the file system. -/
theorem run_writeFile {ε : Type} (session : Session σ) (path : String) (content : ByteArray) :
    (liftM ((Session.system σ).writeFile path content) :
      ExceptT ε (StateM (Session σ)) _).run.run session =
      (.ok (FileSystem.write session.files path content).1,
        { session with files := (FileSystem.write session.files path content).2 }) := rfl

/-- To deliver a text without an output file is to print it. -/
theorem run_deliver_toPrint (session : Session σ) (text : String)
    (noFile : command.output = none) :
    (deliver (Session.system σ) command text).run.run session =
      (.ok (), { session with printed := session.printed ++ text }) := by
  rw [deliver, noFile]
  rfl

/-- To deliver a text to an output file is to write it there. -/
theorem run_deliver_toFile (session : Session σ) (text : String) {path : String}
    (toFile : command.output = some path) :
    (deliver (Session.system σ) command text).run.run session =
      ((FileSystem.write session.files path text.toUTF8).1.mapError (.unwritable path),
        { session with files := (FileSystem.write session.files path text.toUTF8).2 }) := by
  rw [deliver, toFile]
  dsimp only
  rw [run_bind_of_ok (run_writeFile session path text.toUTF8)]
  cases (FileSystem.write session.files path text.toUTF8).1 <;> rfl

/-- Once a document has been taken and the work on it told of, all that is left is to finish. -/
theorem run_attempt_of_takes (session : Session σ) {document : String}
    (takes : command.Takes session.files session.input document) :
    (attempt (Session.system σ) command).run.run session =
      (finish (Session.system σ) command (command.perform document).result).run.run
        { session with events := session.events ++ (command.perform document).events } := by
  obtain ⟨outcome, taken, takesIff⟩ := run_take command session
  obtain rfl : outcome = .ok document := (takesIff document).mpr takes
  rw [attempt, run_bind_of_ok taken, run_bind_of_ok (run_tell _ session)]

/-! ### Exit codes -/

/-- The exit code is zero if the work succeeds. -/
theorem runOn_of_attempt_ok {files : σ} {input : Except FileFault ByteArray} {after : Session σ}
    (succeeds : (attempt (Session.system σ) command).run.run (.start files input) =
      (.ok (), after)) :
    command.runOn files input = ⟨after, 0⟩ := by
  rw [runOn, execute, StateT.run_bind, succeeds]
  rfl

/-- The exit code is one if the work fails, and the fault is reported. -/
theorem runOn_of_attempt_error {files : σ} {input : Except FileFault ByteArray} {fault : Fault}
    {after : Session σ}
    (fails : (attempt (Session.system σ) command).run.run (.start files input) =
      (.error fault, after)) :
    command.runOn files input = ⟨{ after with complaint := some fault }, 1⟩ := by
  rw [runOn, execute, StateT.run_bind, fails]
  rfl

end Command

end ConfTree
