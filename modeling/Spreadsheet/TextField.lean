import Spreadsheet.Text.Bytes

/-!
# Spreadsheet.TextField — a line of text with a cursor

The text of an edited cell and the file name in a prompt are edited in the same way.  The cursor
counts the characters to its left, and characters are put in and removed at the byte where the one
with that number begins.  `insert?`, `backspace?` and `delete?` give nothing if they reach for a
byte where that cannot be done; `insert`, `backspace` and `delete` leave the field as it is then.
-/

namespace Spreadsheet

/-- A line of text and the number of characters left of the cursor. -/
structure TextField where
  chars : List Char
  cursor : Nat
deriving DecidableEq, Repr

namespace TextField

/-- The field without text. -/
def empty : TextField := ⟨[], 0⟩

instance : Inhabited TextField := ⟨empty⟩

/-- A field with this text and the cursor at its end. -/
def ofText (s : String) : TextField := ⟨s.toList, s.toList.length⟩

/-- The text of a field. -/
def text (f : TextField) : String := String.ofList f.chars

/-- Types a character at the cursor. -/
def insert? (f : TextField) (c : Char) : Option TextField :=
  (Text.insertAt? f.chars (Text.byteIndex f.chars f.cursor) c).map fun chars =>
    ⟨chars, f.cursor + 1⟩

/-- Removes the character left of the cursor. -/
def backspace? (f : TextField) : Option TextField :=
  if 0 < f.cursor then
    (Text.removeAt? f.chars (Text.byteIndex f.chars (f.cursor - 1))).map fun chars =>
      ⟨chars, f.cursor - 1⟩
  else some f

/-- Removes the character right of the cursor. -/
def delete? (f : TextField) : Option TextField :=
  if f.cursor < f.chars.length then
    (Text.removeAt? f.chars (Text.byteIndex f.chars f.cursor)).map fun chars => { f with chars }
  else some f

/-- Types a character at the cursor. -/
def insert (f : TextField) (c : Char) : TextField := (f.insert? c).getD f

/-- Types the characters of a text one after the other. -/
def insertText (f : TextField) (s : String) : TextField := s.toList.foldl insert f

/-- Removes the character left of the cursor. -/
def backspace (f : TextField) : TextField := f.backspace?.getD f

/-- Removes the character right of the cursor. -/
def delete (f : TextField) : TextField := f.delete?.getD f

/-- Moves the cursor by a number of characters, as far as the text goes. -/
def move (f : TextField) (delta : Int) : TextField :=
  { f with cursor := min ((f.cursor : Int) + delta).toNat f.chars.length }

/-- One character to the left. -/
def left (f : TextField) : TextField := { f with cursor := f.cursor - 1 }

/-- One character to the right. -/
def right (f : TextField) : TextField := { f with cursor := min (f.cursor + 1) f.chars.length }

/-- To the start of the text. -/
def home (f : TextField) : TextField := { f with cursor := 0 }

/-- To the end of the text. -/
def toEnd (f : TextField) : TextField := { f with cursor := f.chars.length }

end TextField

end Spreadsheet
