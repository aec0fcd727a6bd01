import Spreadsheet.Address.Range
import Spreadsheet.Dimensions
import Spreadsheet.TextField

/-!
# Spreadsheet.Selection — the active cell, the selected range and what the user is doing

One cell is active; a range may be selected besides.  The user does nothing, edits the text of a
cell, or drags out a range with the pointer.  While a selection is extended the corner where it
began stays where it is.
-/

namespace Spreadsheet

/-- The four ways to step. -/
inductive Direction where
  | up | down | left | right
deriving DecidableEq, Repr

/-- An edit in progress: the cell it is for and its text. -/
structure CellEdit where
  cell : Position
  field : TextField
deriving DecidableEq, Repr

/-- What the user is doing. -/
inductive Activity where
  | idle
  | editing (entry : CellEdit)
  | dragging (anchor : Position)
deriving DecidableEq, Repr

/-- The active cell, the range if one is selected, and what the user is doing. -/
structure Selection where
  active : Position
  range : Option Range
  activity : Activity
deriving DecidableEq, Repr

/-- The neighbour of a position in one direction, if its coordinates are words.  At the first row and
column it is the position itself. -/
def Position.neighbour? (p : Position) (d : Direction) : Option Position :=
  match d with
  | .up => some ⟨p.row - 1, p.col⟩
  | .down => (Word.add? p.row 1).map fun row => ⟨row, p.col⟩
  | .left => some ⟨p.row, p.col - 1⟩
  | .right => (Word.add? p.col 1).map fun col => ⟨p.row, col⟩

/-- The neighbour of a position in one direction, if the sheet has it, else the position itself. -/
def Position.step (p : Position) (d : Direction) (dims : Dimensions) : Position :=
  dims.nearest ((p.neighbour? d).getD p)

namespace Selection

/-- The first cell is active and nothing else is going on. -/
def start : Selection := ⟨⟨0, 0⟩, none, .idle⟩

instance : Inhabited Selection := ⟨start⟩

/-- The edit in progress. -/
def entry? (s : Selection) : Option CellEdit :=
  match s.activity with
  | .editing entry => some entry
  | _ => none

/-- Whether a cell is being edited. -/
def isEditing (s : Selection) : Bool := s.entry?.isSome

/-- The cells that copying and deleting act on: the range, or the active cell. -/
def region (s : Selection) : Range := s.range.getD (Range.single s.active)

/-- The name of what is selected. -/
def label (s : Selection) : String :=
  match s.range with
  | some r => r.text
  | none => s.active.id

/-- Whether a position lies in the selected range. -/
def covers (s : Selection) (p : Position) : Bool := s.range.any fun r => r.contains p

/-- The corner from which a selection is extended. -/
def anchor (s : Selection) : Position :=
  match s.range with
  | some r => r.start
  | none => s.active

/-- The pointer is pressed on a cell: with shift the selection is extended to it, without it a new
one is dragged out from there. -/
def press (s : Selection) (p : Position) (shift : Bool) : Selection :=
  if shift then { s with range := some ⟨s.anchor, p⟩, active := p }
  else ⟨p, some (Range.single p), .dragging p⟩

/-- The pointer moves over a cell; that matters only while dragging. -/
def drag (s : Selection) (p : Position) : Selection :=
  match s.activity with
  | .dragging a => { s with range := some ⟨a, p⟩ }
  | _ => s

/-- The pointer is released. -/
def release (s : Selection) : Selection :=
  match s.activity with
  | .dragging _ => { s with activity := .idle }
  | _ => s

/-- Steps to a neighbour; with shift the selection is extended to it, without it the range goes. -/
def step (s : Selection) (d : Direction) (shift : Bool) (dims : Dimensions) : Selection :=
  let next := s.active.step d dims
  { s with
    range := if shift then some ⟨s.anchor, next⟩ else none
    active := next }

/-- Selects the whole sheet. -/
def chooseAll (s : Selection) (dims : Dimensions) : Selection :=
  { s with range := some ⟨⟨0, 0⟩, dims.last⟩ }

/-- Selects a range and makes its first corner active. -/
def choose (s : Selection) (r : Range) : Selection :=
  { s with active := r.start, range := some r }

/-- Begins to edit the active cell. -/
def startEdit (s : Selection) (text : String) : Selection :=
  { s with range := none, activity := .editing ⟨s.active, TextField.ofText text⟩ }

/-- Drops the edit in progress. -/
def dropEdit (s : Selection) : Selection :=
  match s.activity with
  | .editing _ => { s with activity := .idle }
  | _ => s

/-- Ends the edit in progress and tells what is to be written where. -/
def takeEdit (s : Selection) : Option CellEdit × Selection :=
  match s.activity with
  | .editing entry => (some entry, { s with activity := .idle })
  | _ => (none, s)

/-- Changes the text of the edit in progress. -/
def edit (s : Selection) (f : TextField → TextField) : Selection :=
  match s.activity with
  | .editing entry => { s with activity := .editing { entry with field := f entry.field } }
  | _ => s

/-- Keeps the selection on the sheet. -/
def confine (s : Selection) (dims : Dimensions) : Selection :=
  { s with
    active := dims.nearest s.active
    range := s.range.map fun r => ⟨dims.nearest r.start, dims.nearest r.stop⟩ }

end Selection

end Spreadsheet
