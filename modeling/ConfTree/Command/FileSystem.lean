/-
Module: ConfTree.Command.FileSystem
Purpose: Reading and writing files along paths, in any file system.
Main exports:
  FileFault, FileFault.message, decode, FileSystem
-/

namespace ConfTree

/-!
A command meets the files of the system at two points only: it reads all of the file at a path, and
it writes all of the file at a path.  Both may fail for reasons of the system's own.  Which file a
path stands for, and which files there are, is left to the system.
-/

/-- Why something cannot be read or written. -/
inductive FileFault where
  | notFound
  | permissionDenied
  | notDirectory
  | isDirectory
  /-- A path or a name in it is longer than the system takes. -/
  | nameTooLong
  /-- The bytes are not text. -/
  | notText
  /-- Any other reason, in the words of the system. -/
  | other (reason : String)
deriving Repr, DecidableEq

/-- The wording of a fault. -/
def FileFault.message : FileFault → String
  | notFound => "No such file or directory (os error 2)"
  | permissionDenied => "Permission denied (os error 13)"
  | notDirectory => "Not a directory (os error 20)"
  | isDirectory => "Is a directory (os error 21)"
  | nameTooLong => "File name too long (os error 36)"
  | notText => "stream did not contain valid UTF-8"
  | other reason => reason

/-- Bytes as text. -/
def decode (bytes : ByteArray) : Except FileFault String :=
  match String.fromUTF8? bytes with
  | some text => .ok text
  | none => .error .notText

/-- The states of a file system, and what reading and writing along paths do in them. -/
class FileSystem (σ : Type) where
  /-- The bytes at a path. -/
  read (files : σ) (path : String) : Except FileFault ByteArray
  /-- Write bytes to a path, in the place of all that was there.  The state may change also if
  that fails. -/
  write (files : σ) (path : String) (content : ByteArray) : Except FileFault Unit × σ

end ConfTree
