/-!
# Spreadsheet.Files.Utf8 — bytes as characters

`decode` reads bytes as UTF-8.  Bytes that are no part of a character are reported as gaps: the
longest start of a character that is not continued is one gap, and every other stray byte is one.
-/

namespace Spreadsheet

namespace Utf8

/-- Where the decoder stands. -/
inductive State where
  /-- Between characters. -/
  | between
  /-- Inside a character: `need` more bytes, the next one between `low` and `high`, and the value of
  the bits read so far. -/
  | inside (need code low high : Nat)
deriving DecidableEq, Repr

/-- What the first byte of a character calls for: how many bytes follow, its own bits, and the range
of the next byte.  None of the bytes that cannot begin a character of several bytes call for any. -/
def leading? (b : Nat) : Option State :=
  if b < 0xC2 then none
  else if b < 0xE0 then some (.inside 1 (b - 0xC0) 0x80 0xBF)
  else if b = 0xE0 then some (.inside 2 0 0xA0 0xBF)
  else if b = 0xED then some (.inside 2 0xD 0x80 0x9F)
  else if b < 0xF0 then some (.inside 2 (b - 0xE0) 0x80 0xBF)
  else if b = 0xF0 then some (.inside 3 0 0x90 0xBF)
  else if b < 0xF4 then some (.inside 3 (b - 0xF0) 0x80 0xBF)
  else if b = 0xF4 then some (.inside 3 4 0x80 0x8F)
  else none

/-- Reads a byte between characters. -/
def begin (b : Nat) : List (Option Char) × State :=
  if b < 0x80 then ([some (Char.ofNat b)], .between)
  else
    match leading? b with
    | some s => ([], s)
    | none => ([none], .between)

/-- Reads a byte: the characters and gaps that it completes, and the state behind it. -/
def step : State → Nat → List (Option Char) × State
  | .between, b => begin b
  | .inside need code low high, b =>
    if low ≤ b ∧ b ≤ high then
      let code := code * 64 + b % 64
      if need ≤ 1 then ([some (Char.ofNat code)], .between) else ([], .inside (need - 1) code 0x80 0xBF)
    else
      let r := begin b
      (none :: r.1, r.2)

/-- The characters and gaps of bytes, from a state on. -/
def decodeFrom : State → List UInt8 → List (Option Char)
  | .between, [] => []
  | .inside .., [] => [none]
  | s, b :: bs =>
    let r := step s b.toNat
    r.1 ++ decodeFrom r.2 bs

/-- The characters of bytes, with gaps where there are none. -/
def decode (bs : List UInt8) : List (Option Char) := decodeFrom .between bs

/-- The text that bytes are, if they are one. -/
def text? (bs : List UInt8) : Option String := ((decode bs).mapM id).map String.ofList

/-- The text of bytes with a replacement character for every gap. -/
def textWithReplacements (bs : List UInt8) : String :=
  String.ofList ((decode bs).map fun c => c.getD '\uFFFD')

end Utf8

end Spreadsheet
