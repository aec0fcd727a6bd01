import Spreadsheet.Dimensions
import Spreadsheet.Files.FileSystem
import Spreadsheet.History
import Spreadsheet.Json.Record
import Spreadsheet.Json.Value
import Spreadsheet.SaveTimer

/-!
# Spreadsheet.Settings — the user's settings and where they are kept

Settings are an object of eight members in a JSON file; what the file does not say has its default.
A file that is missing or no text counts as empty settings, one that is malformed is an error.
-/

namespace Spreadsheet

/-- The directories that the environment names. -/
structure Environment where
  home : Option String
  dataHome : Option String
  configHome : Option String
  cacheHome : Option String
deriving DecidableEq, Repr

namespace Environment

/-- A directory that a variable names, if its path is absolute, and otherwise one below the home
directory. -/
def directory (env : Environment) (named : Option String) (standard : String) : Option String :=
  match named with
  | some dir => if Path.isAbsolute dir then some dir else env.home.map (Path.join · standard)
  | none => env.home.map (Path.join · standard)

/-- Where programs keep their data. -/
def dataDir (env : Environment) : Option String := env.directory env.dataHome ".local/share"

/-- Where programs keep their settings. -/
def configDir (env : Environment) : Option String := env.directory env.configHome ".config"

/-- Where programs keep what they can do without. -/
def cacheDir (env : Environment) : Option String := env.directory env.cacheHome ".cache"

/-- The directory of this program inside another one, or inside the working directory. -/
def programDir (dir : Option String) : String := Path.join (dir.getD ".") "cellgrid"

end Environment

/-- The user's settings. -/
structure Settings where
  rows : Nat
  cols : Nat
  columnWidth : Nat
  saveDelay : Nat
  historyLimit : Nat
  dataDir : String
  logFile : String
  savesOnExit : Bool
deriving DecidableEq, Repr

/-- A settings file that cannot be used. -/
structure MalformedSettings where
  path : String
  cause : JsonError
deriving DecidableEq, Repr

namespace MalformedSettings

/-- The wording of a settings error around the wording of its cause. -/
def describe (e : MalformedSettings) (cause : String) : String :=
  "malformed settings file " ++ e.path ++ ": " ++ cause

/-- The wording of a settings error. -/
def message (e : MalformedSettings) : String := e.describe e.cause.message

end MalformedSettings

namespace Settings

/-- The settings when no file says otherwise. -/
def standard (env : Environment) : Settings where
  rows := 100
  cols := 26
  columnWidth := 10
  saveDelay := SaveTimer.standardDelay
  historyLimit := History.standardLimit
  dataDir := Path.join (Environment.programDir env.dataDir) "grids"
  logFile := Path.join (Environment.programDir env.cacheDir) "cellgrid.log"
  savesOnExit := false

/-- The settings as JSON. -/
def toJson (s : Settings) : JsonValue :=
  .object
    [ ("default_rows", .natural s.rows), ("default_cols", .natural s.cols),
      ("column_width", .natural s.columnWidth), ("save_debounce_ms", .natural s.saveDelay),
      ("history_limit", .natural s.historyLimit), ("data_dir", .text s.dataDir),
      ("log_file", .text s.logFile), ("flush_on_exit", .bool s.savesOnExit) ]

/-- The members of the object. -/
def fields : List (JsonTree.Field Settings) :=
  [ { name := "default_rows", optional := true
      put := fun t s => t.asWord.map fun n => { s with rows := n } },
    { name := "default_cols", optional := true
      put := fun t s => t.asWord.map fun n => { s with cols := n } },
    { name := "column_width", optional := true
      put := fun t s => t.asShort.map fun n => { s with columnWidth := n } },
    { name := "save_debounce_ms", optional := true
      put := fun t s => t.asWord.map fun n => { s with saveDelay := n } },
    { name := "history_limit", optional := true
      put := fun t s => t.asWord.map fun n => { s with historyLimit := n } },
    { name := "data_dir", optional := true
      put := fun t s => t.asText.map fun dir => { s with dataDir := dir } },
    { name := "log_file", optional := true
      put := fun t s => t.asText.map fun path => { s with logFile := path } },
    { name := "flush_on_exit", optional := true
      put := fun t s => t.asBool.map fun b => { s with savesOnExit := b } } ]

/-- Reads settings from JSON. -/
def parseJson (env : Environment) (s : String) : Except JsonError Settings :=
  JsonTree.parse (JsonTree.readRecord fields (standard env)) s

/-- Where the settings are kept, if the environment names a place. -/
def standardPath (env : Environment) : Option String :=
  env.configDir.map fun dir => Path.join (Path.join dir "cellgrid") "settings.json"

/-- The settings in a file. -/
def read (env : Environment) (fs : FileSystem) (path : String) : Except MalformedSettings Settings :=
  match fs.readText path with
  | .error _ => .ok (standard env)
  | .ok s =>
    match parseJson env s with
    | .ok settings => .ok settings
    | .error e => .error ⟨path, e⟩

/-- The settings in the file where they are kept. -/
def readStandard (env : Environment) (fs : FileSystem) : Except MalformedSettings Settings :=
  match standardPath env with
  | some path => read env fs path
  | none => .ok (standard env)

/-- Writes the settings to a file, in a directory that is made if it is missing. -/
def write (s : Settings) (fs : FileSystem) (path : String) : Except FileError FileSystem := do
  let fs ← fs.makeAlong [] (Path.parents path)
  fs.write path (.text s.toJson.pretty)

end Settings

/-- What a workspace is opened with. -/
structure Options where
  sheetId : String
  /-- The size of a sheet that has never been saved. -/
  dims : Dimensions
  columnWidth : Nat
  saveDelay : Nat
  historyLimit : Nat
  savesOnExit : Bool
deriving DecidableEq, Repr

/-- The options that settings stand for.  Columns are at least three characters wide. -/
def Options.ofSettings (sheetId : String) (s : Settings) : Options where
  sheetId := sheetId
  dims := Dimensions.atLeastOne s.rows s.cols
  columnWidth := max s.columnWidth 3
  saveDelay := s.saveDelay
  historyLimit := s.historyLimit
  savesOnExit := s.savesOnExit

end Spreadsheet
