/-!
# Spreadsheet.Text.Blank — blank characters and trimming

A character is blank when it has the Unicode property White_Space.  `trim` removes the blanks at
both ends of a text; a text that holds nothing else is blank.
-/

namespace Spreadsheet.Text

/-- Blank characters: the 25 of the Unicode property White_Space. -/
def isBlank (c : Char) : Bool :=
  let n := c.toNat
  (0x9 ≤ n && n ≤ 0xD) || n == 0x20 || n == 0x85 || n == 0xA0 || n == 0x1680
    || (0x2000 ≤ n && n ≤ 0x200A) || n == 0x2028 || n == 0x2029 || n == 0x202F
    || n == 0x205F || n == 0x3000

/-- A text without its leading blanks. -/
def trimStart (cs : List Char) : List Char := cs.dropWhile isBlank

/-- A text without its trailing blanks. -/
def trimEnd (cs : List Char) : List Char := (trimStart cs.reverse).reverse

/-- A text without the blanks at its two ends. -/
def trim (cs : List Char) : List Char := trimEnd (trimStart cs)

/-- `trim` on strings. -/
def trimmed (s : String) : String := String.ofList (trim s.toList)

/-- Whether a text holds nothing but blanks; the empty text does. -/
def isBlankText (s : String) : Bool := s.toList.all isBlank

end Spreadsheet.Text
