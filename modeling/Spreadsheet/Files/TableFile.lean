import Spreadsheet.Files.FileSystem
import Spreadsheet.Interchange.Sheet

/-!
# Spreadsheet.Files.TableFile — files of comma separated values

Only files whose extension is `csv`, in either case, are read.  Bytes that are no text are read as
replacement characters.
-/

namespace Spreadsheet

namespace TableFile

/-- Accepts the path of a table by its extension. -/
def accept (path : String) : Except ImportFault Unit :=
  let ext := String.ofList (((Path.extension? path).getD []).map Char.toLower)
  if ext = "csv" then .ok ()
  else if ext = "xls" then .error (.binaryTable ext)
  else if ext = "" then .error (.otherKind "no extension")
  else .error (.otherKind ("." ++ ext))

/-- Reads the table in a file. -/
def read (fs : FileSystem) (path : String) : Except ImportFault Table := do
  accept path
  match fs.read path with
  | .error e => .error (.unreadable e.message)
  | .ok content => Interchange.importText content.readable

/-- Writes a sheet to a file. -/
def write (fs : FileSystem) (path : String) (g : Grid) (dims : Dimensions) :
    Except FileError FileSystem :=
  fs.write path (.text (Interchange.exportText g dims))

end TableFile

end Spreadsheet
