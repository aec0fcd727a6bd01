import Spreadsheet.Address.Column
import Spreadsheet.Address.Position
import Spreadsheet.Address.Range
import Spreadsheet.Archive
import Spreadsheet.Arithmetic.Expr
import Spreadsheet.Arithmetic.Parser
import Spreadsheet.Arithmetic.Token
import Spreadsheet.Clipboard
import Spreadsheet.CommandLine
import Spreadsheet.Dimensions
import Spreadsheet.Document
import Spreadsheet.Files.FileSystem
import Spreadsheet.Files.Path
import Spreadsheet.Files.TableFile
import Spreadsheet.Files.Utf8
import Spreadsheet.Formula.Aggregate
import Spreadsheet.Formula.Evaluation
import Spreadsheet.Formula.RangeCall
import Spreadsheet.Formula.Reference
import Spreadsheet.Formula.Substitution
import Spreadsheet.Formula.Value
import Spreadsheet.Grid
import Spreadsheet.History
import Spreadsheet.Input.Keyboard
import Spreadsheet.Input.Pointer
import Spreadsheet.Input.Session
import Spreadsheet.Interchange.Block
import Spreadsheet.Interchange.Csv
import Spreadsheet.Interchange.Lines
import Spreadsheet.Interchange.Sheet
import Spreadsheet.Json.Record
import Spreadsheet.Json.Tree
import Spreadsheet.Json.Value
import Spreadsheet.Main
import Spreadsheet.Number.Binary64
import Spreadsheet.Number.Decimal
import Spreadsheet.Number.LeadingDigits
import Spreadsheet.Number.Shortest
import Spreadsheet.Proofs.Address.Name
import Spreadsheet.Proofs.Address.Ordering
import Spreadsheet.Proofs.Address.Rectangle
import Spreadsheet.Proofs.Address.Spelling
import Spreadsheet.Proofs.Archive.Agreement
import Spreadsheet.Proofs.Archive.Attempts
import Spreadsheet.Proofs.Archive.Files
import Spreadsheet.Proofs.Archive.Loading
import Spreadsheet.Proofs.Arithmetic.Derivation
import Spreadsheet.Proofs.Arithmetic.Grammar
import Spreadsheet.Proofs.Arithmetic.Parsing
import Spreadsheet.Proofs.Arithmetic.Phrase
import Spreadsheet.Proofs.Document.ReadBack
import Spreadsheet.Proofs.Document.Size
import Spreadsheet.Proofs.Files.Importing
import Spreadsheet.Proofs.Files.Places
import Spreadsheet.Proofs.Files.Trees
import Spreadsheet.Proofs.Formula.Aggregate
import Spreadsheet.Proofs.Formula.Agreement
import Spreadsheet.Proofs.Formula.Alphabet
import Spreadsheet.Proofs.Formula.Calls
import Spreadsheet.Proofs.Formula.Cycles
import Spreadsheet.Proofs.Formula.Dependence
import Spreadsheet.Proofs.Formula.Displayed
import Spreadsheet.Proofs.Formula.Language
import Spreadsheet.Proofs.Formula.Overflow
import Spreadsheet.Proofs.Formula.Parts
import Spreadsheet.Proofs.Formula.Passes
import Spreadsheet.Proofs.Formula.Reached
import Spreadsheet.Proofs.Formula.Recursion
import Spreadsheet.Proofs.Formula.References
import Spreadsheet.Proofs.Formula.Seams
import Spreadsheet.Proofs.Formula.Spliced
import Spreadsheet.Proofs.Formula.TextOperands
import Spreadsheet.Proofs.Formula.Trail
import Spreadsheet.Proofs.Formula.UpperCase
import Spreadsheet.Proofs.Formula.WellFormed
import Spreadsheet.Proofs.Grid.Building
import Spreadsheet.Proofs.Grid.Entries
import Spreadsheet.Proofs.Grid.Within
import Spreadsheet.Proofs.History.Timeline
import Spreadsheet.Proofs.History.WellFormed
import Spreadsheet.Proofs.Interchange.Copying
import Spreadsheet.Proofs.Interchange.Fields
import Spreadsheet.Proofs.Interchange.LineNumbers
import Spreadsheet.Proofs.Interchange.Lines
import Spreadsheet.Proofs.Interchange.Overflow
import Spreadsheet.Proofs.Interchange.Pasting
import Spreadsheet.Proofs.Interchange.Records
import Spreadsheet.Proofs.Interchange.Shape
import Spreadsheet.Proofs.Interchange.SheetText
import Spreadsheet.Proofs.Interchange.Within
import Spreadsheet.Proofs.Json.Quoted
import Spreadsheet.Proofs.Json.Written
import Spreadsheet.Proofs.Number.Double
import Spreadsheet.Proofs.Number.Nearest
import Spreadsheet.Proofs.Number.ReadBack
import Spreadsheet.Proofs.Results
import Spreadsheet.Proofs.Run
import Spreadsheet.Proofs.SaveTimer.Firing
import Spreadsheet.Proofs.Screen.Cursor
import Spreadsheet.Proofs.Screen.Drawing
import Spreadsheet.Proofs.Screen.Pointing
import Spreadsheet.Proofs.Screen.Widths
import Spreadsheet.Proofs.Selection.Activity
import Spreadsheet.Proofs.Selection.Extending
import Spreadsheet.Proofs.Selection.Within
import Spreadsheet.Proofs.Settings.Merging
import Spreadsheet.Proofs.Text.Classes
import Spreadsheet.Proofs.TextField.Sides
import Spreadsheet.Proofs.Workspace.Action
import Spreadsheet.Proofs.Workspace.Addressing
import Spreadsheet.Proofs.Workspace.Changing
import Spreadsheet.Proofs.Workspace.Dragging
import Spreadsheet.Proofs.Workspace.Editing
import Spreadsheet.Proofs.Workspace.Failing
import Spreadsheet.Proofs.Workspace.Focus
import Spreadsheet.Proofs.Workspace.Frame
import Spreadsheet.Proofs.Workspace.Growing
import Spreadsheet.Proofs.Workspace.Leaving
import Spreadsheet.Proofs.Workspace.Operations
import Spreadsheet.Proofs.Workspace.Reopening
import Spreadsheet.Proofs.Workspace.Resaving
import Spreadsheet.Proofs.Workspace.Saving
import Spreadsheet.Proofs.Workspace.Scrolling
import Spreadsheet.Proofs.Workspace.Selecting
import Spreadsheet.Proofs.Workspace.Showing
import Spreadsheet.Proofs.Workspace.Straying
import Spreadsheet.Proofs.Workspace.Typing
import Spreadsheet.Proofs.Workspace.Undoing
import Spreadsheet.Proofs.Workspace.Window
import Spreadsheet.SaveTimer
import Spreadsheet.Screen.Canvas
import Spreadsheet.Screen.HelpText
import Spreadsheet.Screen.Layout
import Spreadsheet.Screen.Render
import Spreadsheet.Selection
import Spreadsheet.Settings
import Spreadsheet.Terminal.Decoder
import Spreadsheet.Terminal.Frame
import Spreadsheet.Text.Blank
import Spreadsheet.Text.Bytes
import Spreadsheet.Text.DecimalDigit
import Spreadsheet.Text.UpperCase
import Spreadsheet.TextField
import Spreadsheet.Word
import Spreadsheet.Workspace.Gestures
import Spreadsheet.Workspace.State
import Spreadsheet.Workspace.Transfer
