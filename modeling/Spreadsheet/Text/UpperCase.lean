/-!
# Spreadsheet.Text.UpperCase — upper case, as far as Latin letters go

Formulas are read in upper case.  Only the letters `A` to `Z` mean anything in a formula, so the
table holds the characters whose Unicode upper case contains one of them: the letters `a` to `z` and
the seventeen special letters and ligatures such as `ß`.  Every other character stays as it is; no
other upper case form is a letter `A` to `Z`, a decimal digit or a blank.
-/

namespace Spreadsheet.Text

/-- Special letters and ligatures with their upper case. -/
def specialUpperCase : List (Char × List Char) :=
  [ ('\u00DF', ['S', 'S']), ('\u0131', ['I']), ('\u0149', ['\u02BC', 'N']), ('\u017F', ['S']),
    ('\u01F0', ['J', '\u030C']), ('\u1E96', ['H', '\u0331']), ('\u1E97', ['T', '\u0308']),
    ('\u1E98', ['W', '\u030A']), ('\u1E99', ['Y', '\u030A']), ('\u1E9A', ['A', '\u02BE']),
    ('\uFB00', ['F', 'F']), ('\uFB01', ['F', 'I']), ('\uFB02', ['F', 'L']),
    ('\uFB03', ['F', 'F', 'I']), ('\uFB04', ['F', 'F', 'L']), ('\uFB05', ['S', 'T']),
    ('\uFB06', ['S', 'T']) ]

/-- The upper case of one character, which may be several. -/
def upperCaseChar (c : Char) : List Char :=
  if c.toNat < 0x80 then [c.toUpper] else (specialUpperCase.lookup c).getD [c]

/-- The upper case of a text. -/
def upperCase (cs : List Char) : List Char := cs.flatMap upperCaseChar

theorem upperCase_append (a b : List Char) : upperCase (a ++ b) = upperCase a ++ upperCase b :=
  List.flatMap_append

/-- Digits and signs are their own upper case, lower case letters are not. -/
example : upperCase "=sum(a1:ﬁ2)".toList = "=SUM(A1:FI2)".toList := by decide +kernel

end Spreadsheet.Text
