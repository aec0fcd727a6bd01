import Spreadsheet.Interchange.Lines

/-!
# Spreadsheet.Files.Path — names of files

A path is a text with slashes between the names of directories and a file.  What stands between the
slashes are its steps: a name leads down, two dots lead up, and a single dot stays in the directory
that has been reached.  A slash at the start leads to the root.
-/

namespace Spreadsheet

namespace Path

/-- The step to the root. -/
def root : String := "/"

/-- The step to the directory above. -/
def up : String := ".."

/-- The step that stays in a directory. -/
def stay : String := "."

/-- Whether a path begins at the root. -/
def isAbsolute (path : String) : Bool := path.toList.head? == some '/'

/-- The steps of a path. -/
def steps (path : String) : List String :=
  let below := ((Interchange.splitAt '/' path.toList).filter fun p => p ≠ []).map String.ofList
  if isAbsolute path then root :: below else below

/-- The steps of a path that lead to another directory or to a file. -/
def names (path : String) : List String := (steps path).filter fun step => step ≠ stay

/-- The path that leads to a place. -/
def ofNames : List String → String
  | [] => stay
  | name :: rest =>
    if name = root then root ++ String.intercalate "/" rest
    else String.intercalate "/" (name :: rest)

/-- Whether a path ends with a slash, so that it can only name a directory. -/
def namesDirectory (path : String) : Bool := path.toList.getLast? == some '/'

/-- The path of `name` inside a directory.  An absolute name stands for itself. -/
def join (dir name : String) : String :=
  if isAbsolute name || dir.isEmpty then name
  else if namesDirectory dir then dir ++ name
  else dir ++ "/" ++ name

/-- The name of the file that a path leads to. -/
def fileName? (path : String) : Option String :=
  match (names path).getLast? with
  | some name => if name = up ∨ name = root then none else some name
  | none => none

/-- The characters behind the last point of a file name, none if there is no point or nothing before
it. -/
def extension? (path : String) : Option (List Char) := do
  let name ← fileName? path
  let pieces := Interchange.splitAt '.' name.toList
  match pieces.getLast?, pieces.dropLast with
  | some _, [] => none
  | some _, [[]] => none
  | last, _ => last

/-- The names of the directories that lead to what a path names. -/
def parents (path : String) : List String := (names path).dropLast

end Path

end Spreadsheet
