import Spreadsheet.Interchange.Lines

/-!
# Spreadsheet.Interchange.Csv — comma separated values

Writing: a record is its fields with commas between them and a line feed behind.  A field is put in
quotes only if it holds a comma, a quote or a line break, and quotes inside it are doubled; a record
of one empty field is written as two quotes.

Reading: a record ends at a line feed, a carriage return or both, and empty lines are skipped.  A
quote opens a quoted field only as the field's first character; inside, two quotes stand for one.
What follows a closing quote is appended as it stands, and an open quote runs to the end of the
text.
-/

namespace Spreadsheet

namespace Csv

/-- Whether a character makes quotes necessary. -/
def isSpecial (c : Char) : Bool := c == ',' || c == '"' || c == '\n' || c == '\r'

/-- A field's text with every quote doubled. -/
def doubleQuotes (cs : List Char) : List Char :=
  cs.flatMap fun c => if c = '"' then ['"', '"'] else [c]

/-- A field as it is written. -/
def fieldText (cs : List Char) : List Char :=
  if cs.any isSpecial then '"' :: (doubleQuotes cs ++ ['"']) else cs

/-- A record as it is written. -/
def recordText (fields : List (List Char)) : List Char :=
  match fields with
  | [[]] => ['"', '"', '\n']
  | _ => Interchange.joinWith ',' (fields.map fieldText) ++ ['\n']

/-- All records as they are written. -/
def text (records : List (List (List Char))) : List Char := records.flatMap recordText

/-- A record and the number that counts the line on which the reader began to look for it. -/
structure Record where
  line : Nat
  fields : List (List Char)
deriving DecidableEq, Repr

/-- Where the reader stands inside a record. -/
inductive Place where
  /-- Nothing of the record has been read. -/
  | recordStart
  /-- A field begins here. -/
  | fieldStart
  /-- Inside a field, outside quotes. -/
  | unquoted
  /-- Inside quotes. -/
  | quoted
  /-- Behind a quote inside quotes: it closes the field, or is the first of two. -/
  | quoteSeen
deriving DecidableEq, Repr

/-- The reader: its place, the lines counted so far, the line where it began to look for the record,
and what it has read of it, fields and characters both last first. -/
structure Reader where
  place : Place
  line : Nat
  start : Nat
  fields : List (List Char)
  field : List Char
deriving DecidableEq, Repr

namespace Reader

/-- The reader at the start of a text. -/
def atStart : Reader := ⟨.recordStart, 1, 1, [], []⟩

/-- The record that ends here. -/
def record (r : Reader) : Record := ⟨r.start, (r.field.reverse :: r.fields).reverse⟩

/-- The reader at the start of the next record, which is looked for from line `line` on. -/
def next (line : Nat) : Reader := ⟨.recordStart, line, line, [], []⟩

/-- Ends a field at a comma. -/
def endField (r : Reader) : Reader :=
  { r with place := .fieldStart, fields := r.field.reverse :: r.fields, field := [] }

/-- Adds a character to the field. -/
def add (r : Reader) (place : Place) (c : Char) : Reader :=
  { r with place := place, field := c :: r.field }

end Reader

/-- Whether a character ends a record. -/
def isBreak (c : Char) : Bool := c == '\n' || c == '\r'

/-- Reads one character: the record that it ends, if it does, and the reader behind it. -/
def step (r : Reader) (c : Char) : Option Record × Reader :=
  let line := if c = '\n' then r.line + 1 else r.line
  match r.place with
  | .quoted => (none, if c = '"' then { r with place := .quoteSeen } else { r.add .quoted c with line })
  | .quoteSeen =>
    if c = '"' then (none, r.add .quoted c)
    else if c = ',' then (none, r.endField)
    else if isBreak c then (some r.record, .next line)
    else (none, r.add .unquoted c)
  | .unquoted =>
    if c = ',' then (none, r.endField)
    else if isBreak c then (some r.record, .next line)
    else (none, r.add .unquoted c)
  | .fieldStart =>
    if c = '"' then (none, { r with place := .quoted })
    else if c = ',' then (none, r.endField)
    else if isBreak c then (some r.record, .next line)
    else (none, r.add .unquoted c)
  | .recordStart =>
    if isBreak c then (none, { r with line })
    else if c = '"' then (none, { r with place := .quoted })
    else if c = ',' then (none, r.endField)
    else (none, r.add .unquoted c)

/-- The records of a text, the first of which the reader may have begun already. -/
def readFrom (r : Reader) : List Char → List Record
  | [] => if r.place = .recordStart then [] else [r.record]
  | c :: cs => (step r c).1.toList ++ readFrom (step r c).2 cs

/-- The mark that may stand at the start of a text. -/
def byteOrderMark : Char := '\uFEFF'

/-- A text without one byte order mark at its start. -/
def dropMark : List Char → List Char
  | [] => []
  | c :: cs => if c = byteOrderMark then cs else c :: cs

/-- The records of a text, which may begin with a byte order mark. -/
def records (cs : List Char) : List Record := readFrom .atStart (dropMark cs)

end Csv

end Spreadsheet
