import Spreadsheet.Settings

/-!
# Spreadsheet.CommandLine — the arguments of the program

The program takes the id of a sheet and options that stand in place of settings.  The value of an
option is the next argument, or stands behind an equals sign; two dashes end the options.
-/

namespace Spreadsheet

/-- What the arguments say. -/
structure CommandLine where
  sheetId : Option String
  dataDir : Option String
  rows : Option Nat
  cols : Option Nat
  logFile : Option String
  savesOnExit : Bool
deriving DecidableEq, Repr

/-- Why arguments cannot be used. -/
inductive UsageFault where
  | unknown (argument : String)
  | missingValue (option : String)
  | badNumber (option text : String)
  | repeated (option : String)
deriving DecidableEq, Repr

/-- The wording of a fault. -/
def UsageFault.message : UsageFault → String
  | unknown argument => "unexpected argument '" ++ argument ++ "' found"
  | missingValue option => "a value is required for '" ++ option ++ "' but none was supplied"
  | badNumber option text => "invalid value '" ++ text ++ "' for '" ++ option ++ "'"
  | repeated option => "the argument '" ++ option ++ "' cannot be used multiple times"

/-- What the program is asked to do. -/
inductive Request where
  | work (line : CommandLine)
  | help
  | version
deriving DecidableEq, Repr

namespace CommandLine

/-- No arguments. -/
def empty : CommandLine := ⟨none, none, none, none, none, false⟩

/-- The sheet to open. -/
def sheet (l : CommandLine) : String := l.sheetId.getD "default"

/-- Keeps the value of an option that has none yet. -/
def once {α : Type} (option : String) (old : Option α) (new : α) : Except UsageFault (Option α) :=
  if old.isSome then .error (.repeated option) else .ok (some new)

/-- Reads the number of rows or columns. -/
def number (option text : String) : Except UsageFault Nat :=
  let ds := text.toList
  let n := Nat.ofDigitChars 10 ds 0
  if ds.isEmpty || !ds.all Char.isDigit || Word.size ≤ n then .error (.badNumber option text)
  else .ok n

/-- Whether an option takes a value. -/
def takesValue (option : String) : Bool :=
  option ∈ ["--data-dir", "--rows", "--cols", "--log-file"]

/-- Takes an option that has a value. -/
def setOption (l : CommandLine) (option value : String) : Except UsageFault CommandLine :=
  match option with
  | "--data-dir" => (once option l.dataDir value).map fun dataDir => { l with dataDir }
  | "--rows" => do
    let rows ← once option l.rows (← number option value)
    return { l with rows }
  | "--cols" => do
    let cols ← once option l.cols (← number option value)
    return { l with cols }
  | "--log-file" => (once option l.logFile value).map fun logFile => { l with logFile }
  | _ => .error (.unknown option)

/-- Takes the id of the sheet. -/
def setSheet (l : CommandLine) (text : String) : Except UsageFault CommandLine :=
  if l.sheetId.isSome then .error (.unknown text) else .ok { l with sheetId := some text }

/-- An option and the value behind its equals sign. -/
def splitOption (text : String) : String × Option String :=
  let cs := text.toList
  let value := (cs.dropWhile (· != '=')).drop 1
  (String.ofList (cs.takeWhile (· != '=')), if '=' ∈ cs then some (String.ofList value) else none)

/-- Takes arguments one after the other.  Behind two dashes all are ids. -/
def read (l : CommandLine) : List String → Except UsageFault Request
  | [] => .ok (.work l)
  | "--help" :: _ | "-h" :: _ => .ok .help
  | "--version" :: _ | "-V" :: _ => .ok .version
  | "--" :: rest => (rest.foldlM setSheet l).map .work
  | "--flush-on-exit" :: rest =>
    if l.savesOnExit then .error (.repeated "--flush-on-exit") else read { l with savesOnExit := true } rest
  | text :: rest =>
    if text.toList.head? = some '-' ∧ text ≠ "-" then
      match splitOption text, rest with
      | (option, some value), rest =>
        match l.setOption option value with
        | .ok l => read l rest
        | .error e => .error e
      | (option, none), value :: rest =>
        match l.setOption option value with
        | .ok l => read l rest
        | .error e => .error e
      | (option, none), [] =>
        .error (if takesValue option then .missingValue option else .unknown option)
    else
      match l.setSheet text with
      | .ok l => read l rest
      | .error e => .error e

/-- Settings with what the arguments say in their place. -/
def apply (l : CommandLine) (s : Settings) : Settings :=
  { s with
    dataDir := l.dataDir.getD s.dataDir
    rows := l.rows.getD s.rows
    cols := l.cols.getD s.cols
    logFile := l.logFile.getD s.logFile
    savesOnExit := l.savesOnExit || s.savesOnExit }

/-- What the program says about its arguments. -/
def usage : String :=
  "Terminal grid with formulas, undo and CSV interchange\n\n"
    ++ "Usage: cellgrid [OPTIONS] [GRID_ID]\n\n"
    ++ "Arguments:\n"
    ++ "  [GRID_ID]  Grid to open; created on first save [default: default]\n\n"
    ++ "Options:\n"
    ++ "      --data-dir <DATA_DIR>  Directory holding saved grids\n"
    ++ "      --rows <ROWS>          Rows of a new grid\n"
    ++ "      --cols <COLS>          Columns of a new grid\n"
    ++ "      --log-file <LOG_FILE>  Log file (the terminal is owned by the UI)\n"
    ++ "      --flush-on-exit        Save pending changes on quit instead of discarding them\n"
    ++ "  -h, --help                 Print help\n"
    ++ "  -V, --version              Print version\n"

/-- The name and version of the program. -/
def versionText : String := "cellgrid 0.1.0\n"

end CommandLine

end Spreadsheet
