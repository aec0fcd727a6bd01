import Spreadsheet.CommandLine
import Spreadsheet.Terminal.Decoder
import Spreadsheet.Terminal.Frame

/-!
# Spreadsheet.Main — the program on a terminal

The program opens the sheet that its arguments name, shows it, and hands the session what the
terminal sends.  The terminal has to be in the mode in which it hands over every key at once and
echoes none.  Everything is decided by the session; here, bytes are moved between it and the
terminal, and files between its file system and the disk.

An escape may be a key or the beginning of a sequence.  The terminal is asked for its size then,
unless an answer is still to come, so that something follows at once in any case.
-/

namespace Spreadsheet

namespace Program

/-- What is on the disk under a path. -/
def look (path : String) : IO (Option Node) := do
  try
    let bytes ← IO.FS.readBinFile path
    return some (.file (Content.ofBytes bytes.data.toList))
  catch
    | .inappropriateType .. => return some .directory
    | _ => return none

/-- The file system with what the disk holds along some places. -/
def fetchAlong (files : FileSystem) : List (List String) → IO FileSystem
  | [] => return files
  | place :: rest => do
    match ← look (Path.ofNames place) with
    | some .directory =>
      fetchAlong (if files.node? place = none then files.put place .directory else files) rest
    | some (.file content) => return files.put place (.file content)
    | none => return files.removed place

/-- The file system with what the disk holds along a path. -/
def fetch (files : FileSystem) (path : String) : IO FileSystem :=
  fetchAlong files (FileSystem.placesAlong [] (Path.names path))

/-- Puts a node on the disk.  A file is written beside its place first. -/
def put (path : String) : Node → IO Unit
  | .directory => IO.FS.createDirAll path
  | .file content => do
    let draft := path ++ ".part"
    match content with
    | .text s => IO.FS.writeFile draft s
    | .bytes bs => IO.FS.writeBinFile draft ⟨bs.toArray⟩
    IO.FS.rename draft path

/-- Puts the nodes on the disk that a session has changed. -/
def store {γ : Type} (before : FileSystem) (s : Session γ) : IO (Session γ) := do
  try
    for n in s.workspace.files.changes before do
      put (Path.ofNames n.1) n.2
    return s
  catch e => return s.notStored before (toString e)

/-- Adds a line to the log, if it can be written. -/
def note (path line : String) : IO Unit := do
  try
    IO.FS.createDirAll (Path.ofNames (Path.parents path))
    (← IO.FS.Handle.mk path .append).putStrLn line
  catch e => IO.eprintln ("cellgrid: logging disabled (" ++ path ++ "): " ++ toString e)

/-- Sends a text to the terminal. -/
def send (text : String) : IO Unit := do
  let out ← IO.getStdout
  out.putStr text
  out.flush

/-- The error of a program that has stopped. -/
def stopError : IO.Error := IO.userError "a number has left its range"

/-- Takes an event at the present time, with the files it needs. -/
def turn {γ : Type} [Archive γ] (s : Session γ) (e : Event) : IO (Bool × Session γ) := do
  let before ← match s.path? e with
    | some path => fetch s.workspace.files path
    | none => pure s.workspace.files
  let r := { s with workspace := { s.workspace with files := before } }.turn (← IO.monoMsNow) e
  if r.2.workspace.stopped then throw stopError
  return (r.1, ← store before r.2)

/-- Takes events up to one that ends the program. -/
def turns {γ : Type} [Archive γ] (s : Session γ) : List Event → IO (Bool × Session γ)
  | [] => return (false, s)
  | e :: es => do
    match ← turn s e with
    | (true, s) => return (true, s)
    | (false, s) => turns s es

/-- Serves the terminal until an event ends the program or the input ends. -/
def serve {γ : Type} [Archive γ] (start : Session γ) : IO (Session γ) := do
  let input ← IO.getStdin
  let mut s := start
  let mut decoder := Terminal.Decoder.start
  let mut asked := true
  send (Terminal.enterText ++ Terminal.sizeQuestion)
  repeat
    let bytes ← input.read 1
    if bytes.isEmpty then break
    let (events, next) := decoder.feed bytes.data.toList
    decoder := next
    if events.any Event.isScreen then asked := false
    if decoder.place = .escape && !asked then
      asked := true
      send Terminal.sizeQuestion
    unless events.isEmpty do
      let (quits, after) ← turns s events
      s := after
      if quits then break
      match Terminal.frame? s.workspace s.width s.height with
      | some text => send text
      | none => throw stopError
  send Terminal.leaveText
  return s

/-- Opens the sheet that the arguments name, serves the terminal, and leaves the sheet. -/
def work (line : CommandLine) : IO Unit := do
  let env : Environment :=
    { home := ← IO.getEnv "HOME"
      dataHome := ← IO.getEnv "XDG_DATA_HOME"
      configHome := ← IO.getEnv "XDG_CONFIG_HOME"
      cacheHome := ← IO.getEnv "XDG_CACHE_HOME" }
  let files ← match Settings.standardPath env with
    | some path => fetch FileSystem.empty path
    | none => pure FileSystem.empty
  let loaded := Settings.readStandard env files
  let settings := line.apply (loaded.toOption.getD (Settings.standard env))
  match loaded with
  | .ok _ => note settings.logFile "starting"
  | .error e => note settings.logFile ("ignoring settings file, using defaults: " ++ e.message)
  let archive : DirectoryArchive := ⟨settings.dataDir⟩
  let files ← fetch files (archive.filePath line.sheet)
  let w : Workspace DirectoryArchive :=
    Workspace.open (Options.ofSettings line.sheet settings) archive files
  if w.stopped then throw stopError
  let last ← serve (Session.fit ⟨w, 80, 24⟩)
  let _ ← store last.workspace.files last.close
  note settings.logFile "exiting"

end Program

end Spreadsheet

open Spreadsheet in
/-- The program. -/
def main (args : List String) : IO UInt32 := do
  match CommandLine.read .empty args with
  | .ok (.work line) =>
    Program.work line
    return 0
  | .ok .help =>
    IO.print CommandLine.usage
    return 0
  | .ok .version =>
    IO.print CommandLine.versionText
    return 0
  | .error e =>
    IO.eprintln ("error: " ++ e.message)
    return 2
