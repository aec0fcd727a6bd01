import Spreadsheet.Dimensions
import Spreadsheet.Grid
import Spreadsheet.Json.Record
import Spreadsheet.Json.Value

/-!
# Spreadsheet.Document — the document in which a sheet is kept

A document holds the cells, the size of the sheet and a word for the kind of document.  As JSON it
is an object with the members `gridData`, `rows`, `cols` and `kind`; the cells are an object with
one member per cell, whose key is the cell's id.
-/

namespace Spreadsheet

namespace Grid

/-- A cell as JSON. -/
def cellJson (text : String) : JsonValue := .object [("rawValue", .text text)]

/-- A grid as JSON. -/
def toJson (g : Grid) : JsonValue := .object (g.entries.map fun e => (e.1.id, cellJson e.2))

/-- The text of a cell that is given as JSON. -/
def cellOfJson : JsonTree → Except JsonError String :=
  JsonTree.readRecord
    [{ name := "rawValue", optional := false, put := fun t _ => t.asText }]
    ""

/-- The cells that members of an object stand for, in their order. -/
def cellsOfMembers : List (Except JsonFault (List Char) × JsonTree) →
    Except JsonError (List (Position × String))
  | [] => .ok []
  | (key, value) :: ms => do
    let id ← JsonTree.keyText key
    match Position.parse id with
    | .error _ => .error .mismatch
    | .ok p =>
      let text ← cellOfJson value
      let rest ← cellsOfMembers ms
      return (p, text) :: rest

/-- The grid that an object stands for.  Of several members for one cell the last one counts, and
blank cells are left out. -/
def ofJson : JsonTree → Except JsonError Grid
  | .object members ending => do
    let cells ← cellsOfMembers members
    match ending with
    | some b => .error (.ofFault b.read)
    | none => .ok (ofLastTexts cells)
  | .array _ _ => .error .mismatch
  | t => .error t.mismatchError

/-- Reads a grid from JSON. -/
def parseJson (s : String) : Except JsonError Grid := JsonTree.parse ofJson s

end Grid

/-- The document in which a sheet is kept. -/
structure Document where
  grid : Grid
  rows : Nat
  cols : Nat
  kind : String
deriving DecidableEq

namespace Document

/-- The kind of document written. -/
def standardKind : String := "spreadsheet"

/-- The document of a sheet. -/
def ofSheet (g : Grid) (dims : Dimensions) : Document := ⟨g, dims.rows, dims.cols, standardKind⟩

/-- The size of the sheet, large enough for every cell. -/
def dims (s : Document) : Dimensions :=
  let d := Dimensions.atLeastOne s.rows s.cols
  match s.grid.extent? with
  | some corner => d.including corner
  | none => d

/-- The size of the sheet, if it is in words. -/
def dims? (s : Document) : Option Dimensions :=
  let d := Dimensions.atLeastOne s.rows s.cols
  match s.grid.extent? with
  | some corner => d.including? corner
  | none => some d

/-- A document as JSON. -/
def toJson (s : Document) : JsonValue :=
  .object
    [ ("gridData", s.grid.toJson), ("rows", .natural s.rows), ("cols", .natural s.cols),
      ("kind", .text s.kind) ]

/-- The members of the object. -/
def fields : List (JsonTree.Field Document) :=
  [ { name := "gridData", optional := true
      put := fun t s => (Grid.ofJson t).map fun grid => { s with grid } },
    { name := "rows", optional := false
      put := fun t s => t.asWord.map fun rows => { s with rows } },
    { name := "cols", optional := false
      put := fun t s => t.asWord.map fun cols => { s with cols } },
    { name := "kind", optional := true
      put := fun t s => t.asText.map fun kind => { s with kind } } ]

/-- Reads a document from JSON. -/
def parseJson (s : String) : Except JsonError Document :=
  JsonTree.parse (JsonTree.readRecord fields ⟨Grid.empty, 0, 0, standardKind⟩) s

end Document

end Spreadsheet
