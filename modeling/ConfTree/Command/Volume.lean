/-
Module: ConfTree.Command.Volume
Purpose: A file system with directories and permissions.
Main exports:
  Rights, FileTree, Location, Volume, Volume.locate, Volume.read, Volume.write, Disk
-/
import ConfTree.Command.FileSystem

namespace ConfTree

/-!
Directories hold files and further directories under their names, all of them below one root.  What
may be done with each is told by its rights, which are those of the user for whom the program
runs.  There are no links: a file is told from others by the names that lead to it from the root.

A path is walked piece by piece, the pieces being what stands between its slashes, either from the
root or from the directory in which the program works.  A single dot stays in a directory, two dots
lead to the one above, and any other piece is the name of something in it.  Nothing lies behind a
file, and nobody gets past a directory that may not be searched.  Paths and names have a greatest
length, which is counted in bytes.
-/

/-! ### Trees -/

/-- What may be done with a file or a directory. -/
structure Rights where
  read : Bool
  /-- A file may be given other content, a directory may be given other files. -/
  write : Bool
  /-- A directory may be walked through. -/
  search : Bool
deriving Repr, DecidableEq

/-- Everything is allowed. -/
def Rights.all : Rights := ⟨true, true, true⟩

/-- Files and directories, with what is in them. -/
inductive FileTree where
  | file (rights : Rights) (content : ByteArray)
  | directory (rights : Rights) (entries : List (String × FileTree))

/-- The names that lead to something from the root. -/
abbrev Location := List String

namespace FileTree

/-- What a directory holds under a name. -/
def child? : FileTree → String → Option FileTree
  | file _ _, _ => none
  | directory _ entries, name => (entries.find? fun entry => entry.1 == name).map (·.2)

/-- Put something under a name in a directory, in the place of what is there. -/
def setChild (tree : FileTree) (name : String) (new : FileTree) : FileTree :=
  match tree with
  | file rights content => file rights content
  | directory rights entries =>
      if (tree.child? name).isSome then
        directory rights (entries.map fun entry => if entry.1 == name then (name, new) else entry)
      else directory rights (entries ++ [(name, new)])

/-- What is found by going from name to name. -/
def at? : FileTree → Location → Option FileTree
  | tree, [] => some tree
  | tree, name :: rest =>
      match tree.child? name with
      | some below => below.at? rest
      | none => none

/-- Put something where names lead to.  The directory for it must be there. -/
def put (new : FileTree) : FileTree → Location → FileTree
  | _, [] => new
  | tree, [name] => tree.setChild name new
  | tree, name :: rest =>
      match tree.child? name with
      | some below => tree.setChild name (put new below rest)
      | none => tree

end FileTree

/-! ### Paths -/

/-- The greatest length of a path. -/
def pathLimit : Nat := 4095

/-- The greatest length of a name in a path. -/
def nameLimit : Nat := 255

/-- The parts of a path between its slashes. -/
def splitSlashes : List Char → List (List Char)
  | [] => [[]]
  | c :: rest =>
      if c = '/' then [] :: splitSlashes rest
      else
        match splitSlashes rest with
        | [] => [[c]]
        | piece :: pieces => (c :: piece) :: pieces

/-- The pieces of a path; slashes side by side count as one. -/
def pathPieces (path : String) : List String :=
  ((splitSlashes path.toList).filter fun piece => !piece.isEmpty).map String.ofList

/-- Whether a path begins with a slash and so starts at the root. -/
def startsAtRoot (path : String) : Bool := path.toList.head? == some '/'

/-- Whether a path ends in a slash and so asks for a directory. -/
def asksForDirectory (path : String) : Bool := path.toList.getLast? == some '/'

/-- Refuse a path that is not walked at all. -/
def checkLength (path : String) : Except FileFault Unit :=
  if path.isEmpty then .error .notFound
  else if pathLimit < path.utf8ByteSize then .error .nameTooLong
  else .ok ()

/-- Why nothing is found at a location. -/
def absence (location : Location) : FileFault :=
  match location.getLast? with
  | some name => if nameLimit < name.utf8ByteSize then .nameTooLong else .notFound
  | none => .notFound

/-! ### Volumes -/

/-- All files and directories, and the directory in which the program works. -/
structure Volume where
  root : FileTree
  home : Location

namespace Volume

/-- Walk on by one piece of a path.  It need not be there: that shows at the next step. -/
def enter (volume : Volume) (location : Location) (piece : String) : Except FileFault Location :=
  match volume.root.at? location with
  | none => .error (absence location)
  | some (.file _ _) => .error .notDirectory
  | some (.directory rights _) =>
      if !rights.search then .error .permissionDenied
      else if piece = "." then .ok location
      -- The directory above the root is the root.
      else if piece = ".." then .ok location.dropLast
      else .ok (location ++ [piece])

/-- Walk on along the pieces of a path. -/
def walk (volume : Volume) : Location → List String → Except FileFault Location
  | location, [] => .ok location
  | location, piece :: rest =>
      match volume.enter location piece with
      | .ok next => volume.walk next rest
      | .error fault => .error fault

/-- Where a path leads to, whether there is something or not. -/
def locate (volume : Volume) (path : String) : Except FileFault Location := do
  checkLength path
  volume.walk (if startsAtRoot path then [] else volume.home) (pathPieces path)

/-! ### Reading and writing -/

/-- The bytes at a location. -/
def readAt (volume : Volume) (location : Location) (asDirectory : Bool) :
    Except FileFault ByteArray :=
  match volume.root.at? location with
  | none => .error (absence location)
  | some (.file rights content) =>
      if asDirectory then .error .notDirectory
      else if !rights.read then .error .permissionDenied
      else .ok content
  | some (.directory rights _) =>
      if !rights.read then .error .permissionDenied else .error .isDirectory

/-- Whether a new file may be made at a location. -/
def mayCreate (volume : Volume) (location : Location) : Except FileFault Unit :=
  if absence location = .nameTooLong then .error .nameTooLong
  else
    match volume.root.at? location.dropLast with
    | some (.directory rights _) => if rights.write then .ok () else .error .permissionDenied
    | _ => .error .notFound

/-- Whether bytes may be written to a location, and the rights of the file if it is made. -/
def mayWrite (volume : Volume) (location : Location) (asDirectory : Bool) :
    Except FileFault Rights :=
  if asDirectory then .error .isDirectory
  else
    match volume.root.at? location with
    | some (.directory _ _) => .error .isDirectory
    | some (.file rights _) => if rights.write then .ok rights else .error .permissionDenied
    | none => (volume.mayCreate location).map fun () => .all

/-- The bytes at a path. -/
def read (volume : Volume) (path : String) : Except FileFault ByteArray := do
  let location ← volume.locate path
  volume.readAt location (asksForDirectory path)

/-- The volume after bytes are written to a path.  A file keeps the rights that it has. -/
def write (volume : Volume) (path : String) (content : ByteArray) : Except FileFault Volume := do
  let location ← volume.locate path
  let rights ← volume.mayWrite location (asksForDirectory path)
  return { volume with root := .put (.file rights content) volume.root location }

end Volume

instance : FileSystem Volume where
  read := Volume.read
  write volume path content :=
    match volume.write path content with
    | .ok after => (.ok (), after)
    | .error fault => (.error fault, volume)

/-! ### A single directory -/

/-- Plain files in one directory. -/
structure Disk where
  files : List (String × ByteArray)

namespace Disk

/-- The content of a file. -/
def content? (disk : Disk) (name : String) : Option ByteArray :=
  (disk.files.find? fun file => file.1 == name).map (·.2)

/-- The location of the directory. -/
def folder : Location := ["work"]

/-- A volume with these files in the directory in which the program works, and no others. -/
def mounted (disk : Disk) : Volume where
  root := .directory ⟨true, false, true⟩
    [("work", .directory .all (disk.files.map fun file => (file.1, .file .all file.2)))]
  home := folder

/-- The file that an entry of a directory is, if it is one. -/
def fileOf? (entry : String × FileTree) : Option (String × ByteArray) :=
  match entry.2 with
  | .file _ content => some (entry.1, content)
  | .directory _ _ => none

/-- The files in the directory of a volume. -/
def ofVolume (volume : Volume) : Disk :=
  match volume.root.at? folder with
  | some (.directory _ entries) => ⟨entries.filterMap fileOf?⟩
  | _ => ⟨[]⟩

end Disk

end ConfTree
