import Spreadsheet.Document
import Spreadsheet.Files.FileSystem

/-!
# Spreadsheet.Archive — where documents are kept

An archive keeps one document per sheet, under the id of the sheet; saving replaces it.
`MemoryArchive` keeps the documents themselves, `DirectoryArchive` keeps each as a file in a
directory.  A file is written beside its place first and then renamed, so that a save that fails
leaves the old one as it was.
-/

namespace Spreadsheet

/-- Why a document cannot be saved or loaded. -/
inductive ArchiveError where
  | storage (e : FileError)
  | unreadable (e : JsonError)
  | rejected (reason : String)
deriving DecidableEq, Repr

/-- The wording of an archive's error. -/
def ArchiveError.message : ArchiveError → String
  | storage e => "storage error: " ++ e.message
  | unreadable e => "serialization failed: " ++ e.message
  | rejected reason => reason

/-- Something that keeps documents under the ids of sheets.  It may use the file system. -/
class Archive (γ : Type) where
  /-- Saves a document. -/
  save : γ → FileSystem → String → Document → Except ArchiveError Unit × γ × FileSystem
  /-- Loads the document of a sheet, if there is one. -/
  load : γ → FileSystem → String → Except ArchiveError (Option Document)

/-- The part of a file name that stands for the id of a sheet: the letters, digits, `-` and `_` of
its trimmed text, with `_` for everything else.  Blank ids stand for `default`. -/
def fileStem (sheetId : String) : String :=
  let stem := (Text.trim sheetId.toList).map fun c =>
    if c.isAlphanum || c == '-' || c == '_' then c else '_'
  if stem.isEmpty then "default" else String.ofList stem

/-- Documents kept in memory. -/
structure MemoryArchive where
  documents : List (String × Document)
  /-- Number of documents saved. -/
  saves : Nat
  /-- Why saving is refused, if it is. -/
  savesRefused : Option String
  /-- Why loading is refused, if it is. -/
  loadsRefused : Option String
deriving DecidableEq

namespace MemoryArchive

/-- Nothing is kept and nothing refused. -/
def empty : MemoryArchive := ⟨[], 0, none, none⟩

/-- The document kept for a sheet. -/
def get? (r : MemoryArchive) (sheetId : String) : Option Document := r.documents.lookup sheetId

/-- Keeps a document. -/
def save (r : MemoryArchive) (sheetId : String) (s : Document) :
    Except ArchiveError Unit × MemoryArchive :=
  match r.savesRefused with
  | some reason => (.error (.rejected reason), r)
  | none =>
    (.ok (), { r with
      documents := (sheetId, s) :: r.documents.filter fun e => e.1 ≠ sheetId
      saves := r.saves + 1 })

/-- Finds a document. -/
def load (r : MemoryArchive) (sheetId : String) : Except ArchiveError (Option Document) :=
  match r.loadsRefused with
  | some reason => .error (.rejected reason)
  | none => .ok (r.get? sheetId)

instance : Archive MemoryArchive where
  save r fs sheetId s := ((r.save sheetId s).1, (r.save sheetId s).2, fs)
  load r _ sheetId := r.load sheetId

end MemoryArchive

/-- Documents kept as files in a directory. -/
structure DirectoryArchive where
  root : String
deriving DecidableEq, Repr

namespace DirectoryArchive

/-- The path of a sheet's file. -/
def filePath (r : DirectoryArchive) (sheetId : String) : String :=
  Path.join r.root (fileStem sheetId ++ ".json")

/-- The path under which a file is written before it takes its place. -/
def draftPath (r : DirectoryArchive) (sheetId : String) : String :=
  Path.join r.root (fileStem sheetId ++ ".json.tmp")

/-- The text of a document's file. -/
def fileText (s : Document) : String := s.toJson.pretty

/-- The steps of a save, in their order. -/
def saveSteps (r : DirectoryArchive) (sheetId : String) (s : Document) :
    List (FileSystem → Except FileError FileSystem) :=
  [ fun fs => fs.makeDirectories r.root,
    fun fs => fs.write (r.draftPath sheetId) (.text (fileText s)),
    fun fs => fs.rename (r.draftPath sheetId) (r.filePath sheetId) ]

/-- Takes steps until one fails; what the steps before it did stays done. -/
def takeSteps : List (FileSystem → Except FileError FileSystem) → FileSystem →
    Except ArchiveError Unit × FileSystem
  | [], fs => (.ok (), fs)
  | step :: steps, fs =>
    match step fs with
    | .ok fs => takeSteps steps fs
    | .error e => (.error (.storage e), fs)

/-- Saves a document. -/
def save (r : DirectoryArchive) (fs : FileSystem) (sheetId : String) (s : Document) :
    Except ArchiveError Unit × FileSystem :=
  takeSteps (r.saveSteps sheetId s) fs

/-- Loads a document, if its file exists. -/
def load (r : DirectoryArchive) (fs : FileSystem) (sheetId : String) :
    Except ArchiveError (Option Document) :=
  if fs.pathExists (r.filePath sheetId) then
    match fs.readText (r.filePath sheetId) with
    | .error e => .error (.storage e)
    | .ok s =>
      match Document.parseJson s with
      | .error e => .error (.unreadable e)
      | .ok document => .ok (some document)
  else .ok none

instance : Archive DirectoryArchive where
  save r fs sheetId s := ((r.save fs sheetId s).1, r, (r.save fs sheetId s).2)
  load r fs sheetId := r.load fs sheetId

end DirectoryArchive

end Spreadsheet
