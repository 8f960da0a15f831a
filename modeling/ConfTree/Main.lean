/-
Module: ConfTree.Main
Purpose: The command line program.
Main exports:
  main
-/
import ConfTree.Command.Arguments
import ConfTree.Command.Run

namespace ConfTree

/-- The reason for a failed access to a file.  The system numbers its reasons, and the
number may come with a minus sign. -/
def fileFault : IO.Error → FileFault
  | .noFileOrDirectory .. => .notFound
  | error@(.permissionDenied _ code _) =>
      if min code (-code) = 13 then .permissionDenied else .other (toString error)
  | error@(.inappropriateType _ code _) | error@(.invalidArgument _ code _) =>
      match min code (-code) with
      | 20 => .notDirectory
      | 21 => .isDirectory
      | 36 => .nameTooLong
      | _ => .other (toString error)
  | error => .other (toString error)

/-- Access a file. -/
def guarded {α : Type} (access : IO α) : IO (Except FileFault α) := do
  try return .ok (← access)
  catch error => return .error (fileFault error)

/-- The system on which the program runs; so much detail of its work is shown. -/
def console (verbosity : Nat) : System IO where
  readFile path := guarded (IO.FS.readBinFile path)
  readInput := guarded do (← IO.getStdin).readBinToEnd
  writeFile path content := guarded (IO.FS.writeBinFile path content)
  print text := IO.print text
  tell event := do if event.isShown verbosity then IO.eprintln event.line
  complain fault := IO.eprint fault.report

end ConfTree

/-- Run the program on the arguments of its command line. -/
def main (arguments : List String) : IO UInt32 := do
  match ConfTree.Request.ofArguments arguments with
  | .work verbosity command => command.execute (ConfTree.console verbosity)
  | .version =>
      IO.print ConfTree.versionText
      return 0
  | .help =>
      IO.print ConfTree.helpText
      return 0
  | .misuse =>
      IO.eprint ConfTree.helpText
      return 2
