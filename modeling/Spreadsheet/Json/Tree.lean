import Spreadsheet.Number.LeadingDigits

/-!
# Spreadsheet.Json.Tree — what can be read of a JSON text

`JsonTree.read` reads any text.  Where the text breaks the rules of JSON the tree has a break that
tells how: the text is malformed there, or it is cut short.  A tree is used in two ways, and each of
them stops at the first break it meets: a value that is wanted is read, one that is not is skipped.
The two differ in small things.  A text with unpaired surrogates can be skipped but not read, and a
number that is cut short is a malformed one when it is skipped.
-/

namespace Spreadsheet

/-- How a text breaks the rules. -/
inductive JsonFault where
  /-- Something stands where it must not. -/
  | malformed
  /-- The text ends too early. -/
  | cutShort
deriving DecidableEq, Repr

/-- What was found instead of a value, when it is read and when it is skipped. -/
structure JsonBreak where
  read : JsonFault
  skipped : JsonFault
deriving DecidableEq, Repr

/-- A break that is the same for both uses. -/
def JsonFault.toBreak (f : JsonFault) : JsonBreak := ⟨f, f⟩

/-- What can be read of a text. -/
inductive JsonTree where
  | null
  | bool (b : Bool)
  /-- A number: its value if it is written as a natural number, and whether it stays finite as a
  double. -/
  | number (value : Option Nat) (inRange : Bool)
  /-- A text, unless reading it fails. -/
  | text (chars : Except JsonFault (List Char))
  /-- The items of an array and, if the array is not closed, how it breaks behind them. -/
  | array (items : List JsonTree) (ending : Option JsonFault)
  /-- The members of an object and, if the object is not closed, how it breaks behind them. -/
  | object (members : List (Except JsonFault (List Char) × JsonTree)) (ending : Option JsonBreak)
  /-- No value. -/
  | broken (why : JsonBreak)

namespace JsonTree

/-- The blanks of JSON. -/
def isSpace (c : Char) : Bool := c == ' ' || c == '\n' || c == '\t' || c == '\r'

/-- A text without its leading blanks. -/
def skipSpace (cs : List Char) : List Char := cs.dropWhile isSpace

/-! ### Texts -/

/-- The value of a hexadecimal digit. -/
def hexValue? (c : Char) : Option Nat :=
  if c.isDigit then some (c.toNat - 48)
  else if 'a' ≤ c ∧ c ≤ 'f' then some (c.toNat - 87)
  else if 'A' ≤ c ∧ c ≤ 'F' then some (c.toNat - 55)
  else none

/-- The value of four hexadecimal digits at the start of a text, and what follows them.  A text of
fewer than four bytes is cut short. -/
def hexEscape : List Char → Except JsonFault (Nat × List Char)
  | a :: b :: c :: d :: cs =>
    match hexValue? a, hexValue? b, hexValue? c, hexValue? d with
    | some x, some y, some z, some w => .ok (((x * 16 + y) * 16 + z) * 16 + w, cs)
    | _, _, _, _ => .error .malformed
  | cs => .error (if (String.ofList cs).utf8ByteSize < 4 then .cutShort else .malformed)

/-- The character that a simple escape stands for. -/
def simpleEscape? : Char → Option Char
  | '"' => some '"'
  | '\\' => some '\\'
  | '/' => some '/'
  | 'b' => some '\x08'
  | 'f' => some '\x0C'
  | 'n' => some '\n'
  | 'r' => some '\r'
  | 't' => some '\t'
  | _ => none

/-- A unit of a text between quotes. -/
inductive TextUnit where
  /-- A character, plain or escaped. -/
  | char (c : Char)
  /-- The escape of a surrogate. -/
  | surrogate (n : Nat)
deriving DecidableEq, Repr

/-- Where the text between quotes stops. -/
inductive TextEnd where
  /-- At the closing quote; what follows it. -/
  | closed (rest : List Char)
  /-- At a break, right behind a backslash or not. -/
  | broken (f : JsonFault)
deriving DecidableEq, Repr

/-- The unit that a code stands for. -/
def unitOf (n : Nat) : TextUnit :=
  if 0xD800 ≤ n ∧ n ≤ 0xDFFF then .surrogate n else .char (Char.ofNat n)

/-- Puts a unit in front of a text. -/
def withUnit (u : TextUnit) (r : List TextUnit × TextEnd) : List TextUnit × TextEnd := (u :: r.1, r.2)

/-- The units of a text behind its opening quote, of which the first `skip` characters have been
read already. -/
def unitsFrom (skip : Nat) : List Char → List TextUnit × TextEnd
  | [] => ([], .broken .cutShort)
  | c :: cs =>
    match skip with
    | k + 1 => unitsFrom k cs
    | 0 =>
      if c = '"' then ([], .closed cs)
      else if c = '\\' then
        match cs with
        | [] => ([], .broken .cutShort)
        | 'u' :: ds =>
          match hexEscape ds with
          | .ok (n, _) => withUnit (unitOf n) (unitsFrom 5 cs)
          | .error f => ([], .broken f)
        | d :: _ =>
          match simpleEscape? d with
          | some e => withUnit (.char e) (unitsFrom 1 cs)
          | none => ([], .broken .malformed)
      else if c.toNat < 0x20 then ([], .broken .malformed)
      else withUnit (.char c) (unitsFrom 0 cs)

/-- The character of a pair of surrogates. -/
def pairChar (high low : Nat) : Char :=
  Char.ofNat ((high - 0xD800) * 0x400 + (low - 0xDC00) + 0x10000)

/-- Pairs the surrogates.  A high one has to be followed by a low one; one that is followed by a
break fails as that break does. -/
def pairUnits (ending : Option JsonFault) : List TextUnit → Except JsonFault (List Char)
  | [] =>
    match ending with
    | none => .ok []
    | some f => .error f
  | .char c :: us => (pairUnits ending us).map (c :: ·)
  | .surrogate high :: us =>
    if 0xDC00 ≤ high then .error .malformed
    else
      match us with
      | .surrogate low :: vs =>
        if 0xDC00 ≤ low then (pairUnits ending vs).map (pairChar high low :: ·) else .error .malformed
      | .char _ :: _ => .error .malformed
      | [] => .error (ending.getD .malformed)

/-- A text behind its opening quote: what it reads as, and what follows it or how it breaks when it
is skipped. -/
def readText (cs : List Char) : Except JsonFault (List Char) × Except JsonFault (List Char) :=
  match unitsFrom 0 cs with
  | (us, .closed rest) => (pairUnits none us, .ok rest)
  | (us, .broken f) => (pairUnits (some f) us, .error f)

/-- The fault with which reading a broken text ends. -/
def faultOf (text : Except JsonFault (List Char)) (skipped : JsonFault) : JsonBreak :=
  match text with
  | .error f => ⟨f, skipped⟩
  | .ok _ => skipped.toBreak

/-! ### Numbers -/

/-- A break of a number: cut short when it is read, if nothing follows, and otherwise malformed. -/
def numberBreak (rest : List Char) : JsonBreak :=
  if rest.isEmpty then ⟨.cutShort, .malformed⟩ else JsonFault.malformed.toBreak

/-- An exponent behind its `e`: its value and what follows, or the break. -/
def readExponent (cs : List Char) : Except JsonBreak (Int × List Char) :=
  let (negative, digits) : Bool × List Char := match cs with
    | '-' :: ds => (true, ds)
    | '+' :: ds => (false, ds)
    | ds => (false, ds)
  let ds := digits.takeWhile Char.isDigit
  if ds.isEmpty then .error (numberBreak digits)
  else
    let n : Int := Nat.ofDigitChars 10 ds 0
    .ok (if negative then -n else n, digits.dropWhile Char.isDigit)

/-- The exponent that may follow the digits of a number. -/
def optionalExponent : List Char → Except JsonBreak (Option Int × List Char)
  | c :: cs =>
    if c = 'e' ∨ c = 'E' then (readExponent cs).map fun r => (some r.1, r.2) else .ok (none, c :: cs)
  | [] => .ok (none, [])

/-- The places that may follow the whole digits of a number. -/
def optionalPlaces : List Char → Except JsonBreak (Option (List Char) × List Char)
  | '.' :: cs =>
    let ds := cs.takeWhile Char.isDigit
    if ds.isEmpty then .error (numberBreak cs) else .ok (some ds, cs.dropWhile Char.isDigit)
  | cs => .ok (none, cs)

/-- The digits before the point: a zero alone, or digits that do not begin with one. -/
def wholeDigits (cs : List Char) : Except JsonBreak (List Char × List Char) :=
  let ds := cs.takeWhile Char.isDigit
  if ds.isEmpty then .error (numberBreak cs)
  else if ds.head? = some '0' ∧ 1 < ds.length then .error JsonFault.malformed.toBreak
  else .ok (ds, cs.dropWhile Char.isDigit)

/-- Reads a number behind its minus sign, if it has one. -/
def readNumber (negative : Bool) (cs : List Char) : Except JsonBreak (JsonTree × List Char) := do
  let (whole, rest) ← wholeDigits cs
  let (places, rest) ← optionalPlaces rest
  let (exponent, rest) ← optionalExponent rest
  let isNatural := !negative && places.isNone && exponent.isNone
  let value := if isNatural then some (Nat.ofDigitChars 10 whole 0) else none
  let inRange := (Decimal.leading whole (places.getD []) (exponent.getD 0)).staysFinite
  return (number value inRange, rest)

/-! ### Values -/

/-- Reads a word. -/
def readWord (word : List Char) (value : JsonTree) (cs : List Char) : JsonTree × List Char :=
  if word.isPrefixOf cs then (value, cs.drop word.length)
  else if cs.isPrefixOf word then (broken JsonFault.cutShort.toBreak, [])
  else (broken JsonFault.malformed.toBreak, [])

/-- A value that has been read, or a break. -/
def orBroken : Except JsonBreak (JsonTree × List Char) → JsonTree × List Char
  | .ok r => r
  | .error b => (broken b, [])

mutual

/-- Reads a value and tells what follows it.  A text of `n` characters is read completely when `room`
is more than `2 * n`. -/
def readValue (room : Nat) (cs : List Char) : JsonTree × List Char :=
  match room with
  | 0 => (broken JsonFault.cutShort.toBreak, [])
  | n + 1 =>
    match skipSpace cs with
    | [] => (broken JsonFault.cutShort.toBreak, [])
    | '\x7b' :: rest =>
      let r := readMembers n true rest
      (object r.1 r.2.1, r.2.2)
    | '[' :: rest =>
      let r := readItems n true rest
      (array r.1 r.2.1, r.2.2)
    | '"' :: rest =>
      match readText rest with
      | (chars, .ok rest) => (text chars, rest)
      | (chars, .error f) => (broken (faultOf chars f), [])
    | '-' :: rest => orBroken (readNumber true rest)
    | c :: rest =>
      if c.isDigit then orBroken (readNumber false (c :: rest))
      else if c = 'n' then readWord ['n', 'u', 'l', 'l'] null (c :: rest)
      else if c = 't' then readWord ['t', 'r', 'u', 'e'] (bool true) (c :: rest)
      else if c = 'f' then readWord ['f', 'a', 'l', 's', 'e'] (bool false) (c :: rest)
      else (broken JsonFault.malformed.toBreak, [])

/-- Reads the items of an array up to its end; `first` tells whether none has been read. -/
def readItems (room : Nat) (first : Bool) (cs : List Char) :
    List JsonTree × Option JsonFault × List Char :=
  match room with
  | 0 => ([], some .cutShort, [])
  | n + 1 =>
    match skipSpace cs with
    | [] => ([], some .cutShort, [])
    | c :: rest =>
      if c = ']' then ([], none, rest)
      else if first then
        let item := readValue n (c :: rest)
        let r := readItems n false item.2
        (item.1 :: r.1, r.2)
      else if c = ',' then
        let item := readValue n rest
        let r := readItems n false item.2
        (item.1 :: r.1, r.2)
      else ([], some .malformed, [])

/-- Reads the members of an object up to its end; `first` tells whether none has been read. -/
def readMembers (room : Nat) (first : Bool) (cs : List Char) :
    List (Except JsonFault (List Char) × JsonTree) × Option JsonBreak × List Char :=
  match room with
  | 0 => ([], some JsonFault.cutShort.toBreak, [])
  | n + 1 =>
    match skipSpace cs with
    | [] => ([], some JsonFault.cutShort.toBreak, [])
    | c :: rest =>
      if c = '\x7d' then ([], none, rest)
      else if !first && c ≠ ',' then ([], some JsonFault.malformed.toBreak, [])
      else
        match skipSpace (if first then c :: rest else rest) with
        | [] => ([], some JsonFault.cutShort.toBreak, [])
        | '"' :: rest =>
          match readText rest with
          | (key, .error f) => ([], some (faultOf key f), [])
          | (key, .ok rest) =>
            match skipSpace rest with
            | [] => ([(key, broken JsonFault.cutShort.toBreak)], none, [])
            | ':' :: rest =>
              let value := readValue n rest
              let r := readMembers n false value.2
              ((key, value.1) :: r.1, r.2)
            | _ :: _ => ([(key, broken JsonFault.malformed.toBreak)], none, [])
        | _ :: _ => ([], some JsonFault.malformed.toBreak, [])

end

/-- Reads a whole text: its value, and whether something stands behind it. -/
def read (cs : List Char) : JsonTree × Bool :=
  let r := readValue (2 * cs.length + 1) cs
  (r.1, !(skipSpace r.2).isEmpty)

end JsonTree

end Spreadsheet
