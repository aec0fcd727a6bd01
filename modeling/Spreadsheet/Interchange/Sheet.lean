import Spreadsheet.Dimensions
import Spreadsheet.Grid
import Spreadsheet.Interchange.Csv

/-!
# Spreadsheet.Interchange.Sheet — the whole sheet as comma separated values

`exportText` writes every row of the sheet as a record, behind a byte order mark.  `importText` reads
a text whose records all have the same number of fields; blank fields leave their cells empty.
-/

namespace Spreadsheet

/-- Why a text or file cannot be imported. -/
inductive ImportFault where
  /-- A binary spreadsheet of this extension. -/
  | binaryTable (extension : String)
  /-- A file of another kind. -/
  | otherKind (kind : String)
  /-- There is no data. -/
  | empty
  /-- A record has another number of fields than the first one. -/
  | ragged (line expected found : Nat)
  /-- The file cannot be read; the text says why. -/
  | unreadable (reason : String)
deriving DecidableEq, Repr

/-- The wording of an import error. -/
def ImportFault.message : ImportFault → String
  | .binaryTable ext =>
    "legacy binary spreadsheet format (." ++ ext ++ ") is not supported; save the file as CSV first"
  | .otherKind kind =>
    "unrecognized file format (" ++ kind ++ "); only .csv files can be imported"
  | .empty => "the file contains no data"
  | .ragged line expected found =>
    "line " ++ toString line ++ " has " ++ toString found ++ " fields, expected " ++ toString expected
  | .unreadable reason => reason

/-- What an import brings: the cells and the size of the text's table. -/
structure Table where
  grid : Grid
  rows : Nat
  cols : Nat
deriving DecidableEq

namespace Interchange

/-- The fields of one row of the sheet. -/
def rowFields (g : Grid) (dims : Dimensions) (row : Nat) : List (List Char) :=
  (List.range dims.cols).map fun col => (g.textAt ⟨row, col⟩).toList

/-- The whole sheet as text. -/
def exportText (g : Grid) (dims : Dimensions) : String :=
  String.ofList (Csv.byteOrderMark :: Csv.text ((List.range dims.rows).map (rowFields g dims)))

/-- The cells of a record in row `row`. -/
def recordCells (row : Nat) (fields : List (List Char)) : List (Position × String) :=
  fields.zipIdx.map fun f => (⟨row, f.2⟩, String.ofList f.1)

/-- The first of the records that has another number of fields than `expected`. -/
def mismatch? (expected : Nat) (records : List Csv.Record) : Option ImportFault :=
  (records.find? fun r => r.fields.length ≠ expected).map fun r =>
    .ragged r.line expected r.fields.length

/-- Reads a whole sheet. -/
def importText (text : String) : Except ImportFault Table :=
  let cs := Csv.dropMark text.toList
  if cs.all Text.isBlank then .error .empty
  else
    let records := Csv.records cs
    let cols := (records.head?.map fun r => r.fields.length).getD 0
    match mismatch? cols records with
    | some e => .error e
    | none =>
      .ok
        { grid := Grid.ofLastTexts (records.zipIdx.flatMap fun r => recordCells r.2 r.1.fields)
          rows := records.length
          cols := cols }

end Interchange

end Spreadsheet
