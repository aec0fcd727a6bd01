/-!
# Spreadsheet.Json.Value — documents and how they are written

A document is built from truth values, natural numbers, texts and objects, whose members stand in a
fixed order.  `compact` writes it without blanks, `pretty` with one member to a line and two spaces
of indentation per level.
-/

namespace Spreadsheet

/-- What the documents of this library are made of. -/
inductive JsonValue where
  | bool (b : Bool)
  | natural (n : Nat)
  | text (s : String)
  | object (members : List (String × JsonValue))
deriving Repr

namespace JsonValue

/-- A hexadecimal digit. -/
def hexDigit (n : Nat) : Char := Nat.digitChar (n % 16)

/-- A character as it stands between quotes: quotes, backslashes and control characters are
escaped. -/
def escape (c : Char) : List Char :=
  if c = '"' then ['\\', '"']
  else if c = '\\' then ['\\', '\\']
  else if c = '\x08' then ['\\', 'b']
  else if c = '\t' then ['\\', 't']
  else if c = '\n' then ['\\', 'n']
  else if c = '\x0C' then ['\\', 'f']
  else if c = '\r' then ['\\', 'r']
  else if c.toNat < 0x20 then ['\\', 'u', '0', '0', hexDigit (c.toNat / 16), hexDigit c.toNat]
  else [c]

/-- A text in quotes. -/
def quoted (cs : List Char) : List Char := '"' :: (cs.flatMap escape ++ ['"'])

/-- A truth value. -/
def boolText : Bool → List Char
  | true => ['t', 'r', 'u', 'e']
  | false => ['f', 'a', 'l', 's', 'e']

mutual

/-- A document without blanks. -/
def compactText : JsonValue → List Char
  | bool b => boolText b
  | natural n => Nat.toDigits 10 n
  | text s => quoted s.toList
  | object ms => '\x7b' :: compactMembers ms

/-- The members of an object without blanks, up to the closing brace. -/
def compactMembers : List (String × JsonValue) → List Char
  | [] => ['\x7d']
  | (key, v) :: ms =>
    quoted key.toList ++ ':' :: compactText v
      ++ (match ms with | [] => [] | _ :: _ => [',']) ++ compactMembers ms

end

/-- A line break and the indentation of a level. -/
def lineAt (level : Nat) : List Char := '\n' :: List.replicate (2 * level) ' '

mutual

/-- A document with one member to a line, inside so many objects. -/
def prettyText (level : Nat) : JsonValue → List Char
  | bool b => boolText b
  | natural n => Nat.toDigits 10 n
  | text s => quoted s.toList
  | object [] => ['\x7b', '\x7d']
  | object (m :: ms) => '\x7b' :: prettyMembers level (m :: ms)

/-- The members of an object, one to a line, up to the closing brace. -/
def prettyMembers (level : Nat) : List (String × JsonValue) → List Char
  | [] => lineAt level ++ ['\x7d']
  | (key, v) :: ms =>
    lineAt (level + 1) ++ quoted key.toList ++ ':' :: ' ' :: prettyText (level + 1) v
      ++ (match ms with | [] => [] | _ :: _ => [',']) ++ prettyMembers level ms

end

/-- The text of a document without blanks. -/
def compact (v : JsonValue) : String := String.ofList (compactText v)

/-- The text of a document with one member to a line. -/
def pretty (v : JsonValue) : String := String.ofList (prettyText 0 v)

end JsonValue

end Spreadsheet
