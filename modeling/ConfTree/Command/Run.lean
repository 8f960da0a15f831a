/-
Module: ConfTree.Command.Run
Purpose: What a command makes of a text, and what it does to the files and streams around it.
Main exports:
  Command.Fault, Command.Fault.report, Command.perform, System, Command.execute, Session, Run,
  Command.runOn, Command.run
-/
import ConfTree.Command.Basic
import ConfTree.Command.Volume
import ConfTree.Dump
import ConfTree.Journal
import ConfTree.Manifest.Json
import ConfTree.Manifest.Review
import ConfTree.Path
import ConfTree.Value.Json

namespace ConfTree

/-!
A command reads one text, makes one text out of it and delivers that to one place.
`Command.perform` is the middle part: it knows nothing of files.  Around it, the program is written
once for every system that offers the few operations it needs, in whatever monad these take effect.
In `IO` they are those of the operating system.  In a session they change a state, which holds the
files and all that has been printed and told so far; the exit code stands beside it.
-/

namespace Command

/-! ### Failures -/

/-- Why a run fails. -/
inductive Fault where
  /-- Standard input, or the file of that path, cannot be read as text. -/
  | unreadable (path : Option String) (cause : FileFault)
  | badDocument (cause : Failure)
  | unresolvable (path : String) (cause : Failure)
  | badManifest (cause : Manifest.Defect)
  | unwritable (path : String) (cause : FileFault)
deriving Repr, DecidableEq

/-- What was being done when a run failed. -/
def Fault.headline : Fault → String
  | unreadable none _ => "Failed to read from stdin"
  | unreadable (some path) _ => "Failed to read file: " ++ path
  | badDocument _ => "Failed to read JSON document"
  | unresolvable path _ => "Failed to resolve path: " ++ path
  | badManifest _ => "Invalid component manifest"
  | unwritable path _ => "Failed to write file: " ++ path

/-- The wordings of a failure and of what is behind it. -/
def failureCauses (failure : Failure) : List String :=
  failure.message ::
    match failure with
    | .malformedJson error => [error.message]
    | _ => []

/-- The wordings of a defect and of what is behind it. -/
def defectCauses (defect : Manifest.Defect) : List String :=
  defect.message ::
    match defect with
    | .malformedJson error => [error.message]
    | _ => []

/-- The causes of a failed run, each one behind the one before it. -/
def Fault.causes : Fault → List String
  | unreadable _ cause | unwritable _ cause => [cause.message]
  | badDocument cause | unresolvable _ cause => failureCauses cause
  | badManifest cause => defectCauses cause

/-- A text whose further lines are indented. -/
def hang (indent : List Char) (text : String) : List Char :=
  text.toList.flatMap fun c => if c = '\n' then '\n' :: indent else [c]

/-- A number at the end of a column. -/
def numbered (number : Nat) : List Char :=
  let digits := digitChars number
  List.replicate (5 - digits.length) ' ' ++ digits ++ [':', ' ']

/-- The lines for causes that are numbered from a number on. -/
def numberedCauses : Nat → List String → List Char
  | _, [] => []
  | number, cause :: rest =>
      numbered number ++ hang (List.replicate 7 ' ') cause ++
        '\n' :: numberedCauses (number + 1) rest

/-- The lines for causes; a single one has no number. -/
def causeLines : List String → List Char
  | [] => []
  | [cause] => List.replicate 4 ' ' ++ hang (List.replicate 4 ' ') cause ++ ['\n']
  | causes => numberedCauses 0 causes

/-- The report of a failed run. -/
def Fault.report (fault : Fault) : String :=
  "Error: " ++ fault.headline ++ "\n\nCaused by:\n" ++
    String.ofList (causeLines fault.causes)

/-! ### The work -/

/-- A text or a fault, with the events on the way to it. -/
structure Work where
  events : List Event
  result : Except Fault String

/-- A value in the form that is asked for. -/
def format (form : Format) (value : Value) : String :=
  match form with
  | .dump => value.dump
  | .json => value.pretty ++ "\n"

/-- The work on the value of a document. -/
def onDocument (strategy : Strategy) (text : String) (work : Value → Work) : Work :=
  match Value.read strategy text with
  | .error failure => ⟨[], .error (.badDocument failure)⟩
  | .ok value =>
      let rest := work value
      ⟨.documentLoaded strategy value.kind :: rest.events, rest.result⟩

/-- The work of finding the value at a path and printing it. -/
def getWork (path : String) (form : Format) (value : Value) : Work :=
  match value.resolve path with
  | .error failure => ⟨failure.events, .error (.unresolvable path failure)⟩
  | .ok found => ⟨[.pathResolved path found.kind], .ok (format form found)⟩

/-- The work of checking a manifest and printing its records. -/
def manifestWork (text : String) : Work :=
  let review := Manifest.read text
  let warnings := review.warnings.map Event.configurationIgnored
  match review.outcome with
  | .error defect => ⟨warnings, .error (.badManifest defect)⟩
  | .ok components =>
      ⟨warnings ++ [.manifestValidated components.length],
        .ok ((Manifest.recordsToJson components).pretty ++ "\n")⟩

/-- The text that a command makes of the text that it reads. -/
def perform (command : Command) (text : String) : Work :=
  match command with
  | .render _ _ strategy form =>
      onDocument strategy text fun value => ⟨[], .ok (format form value)⟩
  | .get path _ strategy form => onDocument strategy text (getWork path form)
  | .manifest _ _ => manifestWork text

end Command

/-! ### The program -/

/-- What a program finds around it: files, standard input, standard output, and someone who reads
what it tells of its work. -/
structure System (m : Type → Type) where
  readFile (path : String) : m (Except FileFault ByteArray)
  /-- All of standard input. -/
  readInput : m (Except FileFault ByteArray)
  writeFile (path : String) (content : ByteArray) : m (Except FileFault Unit)
  print (text : String) : m Unit
  tell (event : Event) : m Unit
  complain (fault : Command.Fault) : m Unit

namespace Command

section

variable {m : Type → Type} [Monad m]

/-- Read the bytes that a command works on, from its input file or from standard input. -/
def readBytes (system : System m) (command : Command) : m (Except FileFault ByteArray) :=
  match command.input with
  | some path => system.readFile path
  | none => system.readInput

/-- Take the text that a command works on. -/
def take (system : System m) (command : Command) : ExceptT Fault m String := do
  let bytes ← (readBytes system command : m _)
  match bytes >>= decode with
  | .ok text => return text
  | .error fault => throw (.unreadable command.input fault)

/-- Deliver the text that a command has made, to its output file or to standard output. -/
def deliver (system : System m) (command : Command) (text : String) : ExceptT Fault m Unit := do
  match command.output with
  | none => system.print text
  | some path =>
      match ← system.writeFile path text.toUTF8 with
      | .ok () => return ()
      | .error fault => throw (.unwritable path fault)

/-- Deliver what the work has come to, unless it has failed. -/
def finish (system : System m) (command : Command) : Except Fault String → ExceptT Fault m Unit
  | .ok text => deliver system command text
  | .error fault => throw fault

/-- Do the work of a command as far as it goes. -/
def attempt (system : System m) (command : Command) : ExceptT Fault m Unit := do
  let document ← take system command
  let work := command.perform document
  work.events.forM fun event => system.tell event
  finish system command work.result

/-- Run a command, and answer the exit code. -/
def execute (system : System m) (command : Command) : m UInt32 := do
  match ← (attempt system command).run with
  | .ok () => return 0
  | .error fault =>
      system.complain fault
      return 1

end

end Command

/-! ### Runs -/

/-- What is around a run, with what it has done so far. -/
structure Session (σ : Type) where
  files : σ
  /-- All of standard input, unless it cannot be read. -/
  input : Except FileFault ByteArray
  /-- The text on standard output. -/
  printed : String
  events : List Event
  complaint : Option Command.Fault

namespace Session

/-- Nothing has been done yet. -/
def start {σ : Type} (files : σ) (input : Except FileFault ByteArray) : Session σ :=
  ⟨files, input, "", [], none⟩

/-- The files and streams of a session. -/
def system (σ : Type) [FileSystem σ] : System (StateM (Session σ)) where
  readFile path := do return FileSystem.read (← get).files path
  readInput := do return (← get).input
  writeFile path content := do
    let (outcome, files) := FileSystem.write (← get).files path content
    modify fun session => { session with files }
    return outcome
  print text := modify fun session => { session with printed := session.printed ++ text }
  tell event := modify fun session => { session with events := session.events ++ [event] }
  complain fault := modify fun session => { session with complaint := some fault }

end Session

/-- What a run comes to. -/
structure Run (σ : Type) extends Session σ where
  exitCode : UInt32

/-- The text on standard output, or why the run has failed. -/
def Run.output {σ : Type} (run : Run σ) : Except Command.Fault String :=
  match run.complaint with
  | none => .ok run.printed
  | some fault => .error fault

/-- Run a command among some files, with that standard input. -/
def Command.runOn {σ : Type} [FileSystem σ] (command : Command) (files : σ)
    (input : Except FileFault ByteArray) : Run σ :=
  let (exitCode, session) := (execute (Session.system σ) command).run (.start files input)
  ⟨session, exitCode⟩

/-- Run a command in a directory of plain files. -/
def Command.run (command : Command) (disk : Disk) (stdin : ByteArray) : Run Volume :=
  command.runOn disk.mounted (.ok stdin)

/-- The files that a run leaves in its directory. -/
def Run.disk (run : Run Volume) : Disk := .ofVolume run.files

/-- Whether an event is shown to someone who asked for so much detail. -/
def Event.isShown (verbosity : Nat) (event : Event) : Bool :=
  let least :=
    match verbosity with
    | 0 => Level.warn
    | 1 => Level.info
    | _ => Level.debug
  least.rank ≤ event.level.rank

/-- The events that are shown to someone who asked for so much detail. -/
def shownEvents (verbosity : Nat) (events : List Event) : List Event :=
  events.filter (Event.isShown verbosity)

/-- What is printed about the version of the program. -/
def versionText : String := "anyconf 0.1.0\n"

/-- What is printed about the use of the program. -/
def helpText : String :=
  "Render, query and validate heterogeneous configuration values\n\n" ++
  "Usage: anyconf [-v] render [-i FILE] [-o FILE] [--strategy NAME] [--format FORMAT]\n" ++
  "       anyconf [-v] get PATH [-i FILE] [--strategy NAME] [--format FORMAT]\n" ++
  "       anyconf [-v] manifest [-i FILE] [-o FILE]\n"

end ConfTree
