import Spreadsheet.Files.Path
import Spreadsheet.Files.Utf8

/-!
# Spreadsheet.Files.FileSystem — files and directories as a value

A file system maps places to files and directories.  A place is the list of the names that lead to
it from the working directory, or from the root if the first of them is the root's.  A place above
the working directory is as many pairs of dots as it is higher.  The root, the working directory and
those above it always exist.  Every operation tells how it fails.
-/

namespace Spreadsheet

/-- What a file holds: a text, or bytes that are none. -/
inductive Content where
  | text (s : String)
  | bytes (bs : List UInt8)
deriving DecidableEq, Repr

namespace Content

/-- The content that consists of these bytes. -/
def ofBytes (bs : List UInt8) : Content :=
  match Utf8.text? bs with
  | some s => text s
  | none => bytes bs

/-- The content as text, with replacement characters where it is none. -/
def readable : Content → String
  | text s => s
  | bytes bs => Utf8.textWithReplacements bs

end Content

/-- How an operation on files fails. -/
inductive FileError where
  | notFound
  | alreadyExists
  | notDirectory
  | isDirectory
  | nameTooLong
  | nulInName
  | notText
deriving DecidableEq, Repr

/-- The wording of a file error. -/
def FileError.message : FileError → String
  | notFound => "No such file or directory (os error 2)"
  | alreadyExists => "File exists (os error 17)"
  | notDirectory => "Not a directory (os error 20)"
  | isDirectory => "Is a directory (os error 21)"
  | nameTooLong => "File name too long (os error 36)"
  | nulInName => "file name contained an unexpected NUL byte"
  | notText => "stream did not contain valid UTF-8"

/-- A file or a directory. -/
inductive Node where
  | file (content : Content)
  | directory
deriving DecidableEq, Repr

/-- Files and directories by their places. -/
structure FileSystem where
  nodes : List (List String × Node)
deriving DecidableEq, Repr

namespace FileSystem

/-- The file system without files. -/
def empty : FileSystem := ⟨[]⟩

instance : Inhabited FileSystem := ⟨empty⟩

/-- Whether a place is the working directory or one above it. -/
def isAtOrAbove (place : List String) : Bool := place.all (· == Path.up)

/-- The node at a place. -/
def node? (fs : FileSystem) (place : List String) : Option Node :=
  if isAtOrAbove place ∨ place = [Path.root] then some .directory else fs.nodes.lookup place

/-- The directory above a place.  The root has none above it and stands for it itself. -/
def above (place : List String) : List String :=
  if place = [Path.root] then place
  else if isAtOrAbove place then place ++ [Path.up]
  else place.dropLast

/-- Removes the node at a place. -/
def removed (fs : FileSystem) (place : List String) : FileSystem :=
  ⟨fs.nodes.filter fun n => n.1 ≠ place⟩

/-- Puts a node at a place, instead of the one that is there. -/
def put (fs : FileSystem) (place : List String) (n : Node) : FileSystem :=
  ⟨(place, n) :: (fs.removed place).nodes⟩

/-- The longest name in bytes. -/
def nameLimit : Nat := 255

/-- The longest path in bytes. -/
def pathLimit : Nat := 4095

/-- Follows steps: each of them is taken from a directory. -/
def follow (fs : FileSystem) (here : List String) : List String → Except FileError (List String)
  | [] => .ok here
  | step :: rest =>
    match fs.node? here with
    | none => .error .notFound
    | some (.file _) => .error .notDirectory
    | some .directory =>
      if step = Path.stay then fs.follow here rest
      else if step = Path.up then fs.follow (above here) rest
      else if nameLimit < step.utf8ByteSize then .error .nameTooLong
      else fs.follow (here ++ [step]) rest

/-- Follows steps that a path prescribes, if the path itself is one. -/
def walk (fs : FileSystem) (path : String) (steps : List String) : Except FileError (List String) :=
  if path.toList.contains '\x00' then .error .nulInName
  else if path.isEmpty then .error .notFound
  else if pathLimit < path.utf8ByteSize then .error .nameTooLong
  else fs.follow [] steps

/-- The place that a path names. -/
def place (fs : FileSystem) (path : String) : Except FileError (List String) :=
  fs.walk path (Path.steps path)

/-- The places that a path leads along, if every name leads to a directory. -/
def placesAlong (here : List String) : List String → List (List String)
  | [] => []
  | name :: rest =>
    let next := if name = Path.up then above here else here ++ [name]
    next :: placesAlong next rest

/-- The nodes that are new or have changed since `before`, in the order in which they came. -/
def changes (fs before : FileSystem) : List (List String × Node) :=
  (fs.nodes.filter fun n => before.node? n.1 ≠ some n.2).reverse

/-- The content of a file. -/
def read (fs : FileSystem) (path : String) : Except FileError Content := do
  let place ← fs.place path
  match fs.node? place with
  | none => .error .notFound
  | some .directory => .error .isDirectory
  | some (.file content) => if Path.namesDirectory path then .error .notDirectory else .ok content

/-- The text of a file. -/
def readText (fs : FileSystem) (path : String) : Except FileError String := do
  match ← fs.read path with
  | .text s => .ok s
  | .bytes _ => .error .notText

/-- Whether a path leads to something. -/
def pathExists (fs : FileSystem) (path : String) : Bool :=
  match fs.place path with
  | .error _ => false
  | .ok place =>
    match fs.node? place with
    | none => false
    | some .directory => true
    | some (.file _) => !Path.namesDirectory path

/-- Writes a file, new or not.  The last step of a path that names a directory is not looked at, if
there is a directory in which to take it. -/
def write (fs : FileSystem) (path : String) (content : Content) : Except FileError FileSystem := do
  if Path.namesDirectory path then
    let _ ← fs.walk path ((Path.steps path).dropLast ++ [Path.stay])
    .error .isDirectory
  else
    let place ← fs.place path
    if fs.node? place = some .directory then .error .isDirectory
    else .ok (fs.put place (.file content))

/-- Makes the directories that are missing on the way along some names. -/
def makeAlong (fs : FileSystem) (here : List String) : List String → Except FileError FileSystem
  | [] => .ok fs
  | name :: rest =>
    if name = Path.up then fs.makeAlong (above here) rest
    else if nameLimit < name.utf8ByteSize then .error .nameTooLong
    else
      match fs.node? (here ++ [name]) with
      | some .directory => fs.makeAlong (here ++ [name]) rest
      | some (.file _) => .error (if rest.isEmpty then .alreadyExists else .notDirectory)
      | none => (fs.put (here ++ [name]) .directory).makeAlong (here ++ [name]) rest

/-- Makes a directory and those that lead to it, where they are missing. -/
def makeDirectories (fs : FileSystem) (path : String) : Except FileError FileSystem :=
  if path.toList.contains '\x00' then .error .nulInName else fs.makeAlong [] (Path.names path)

/-- Gives a file another name, in place of the file that has it. -/
def rename (fs : FileSystem) (old new : String) : Except FileError FileSystem := do
  let source ← fs.place old
  let target ← fs.place new
  match fs.node? source, fs.node? target with
  | none, _ => .error .notFound
  | some (.file _), some .directory => .error .isDirectory
  | some .directory, some (.file _) => .error .notDirectory
  | some n, _ => .ok ((fs.removed source).put target n)

/-- The names of the files in a directory. -/
def fileNames (fs : FileSystem) (dir : List String) : List String :=
  fs.nodes.filterMap fun n =>
    match n.2 with
    | .file _ => if n.1.dropLast = dir then n.1.getLast? else none
    | .directory => none

end FileSystem

end Spreadsheet
