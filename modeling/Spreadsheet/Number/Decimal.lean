import Spreadsheet.Number.Binary64

/-!
# Spreadsheet.Number.Decimal — numbers in decimal notation

`Decimal` is a whole number of units of a power of ten.  `parse?` reads the usual notation with an
optional point and an optional exponent, `text` writes one without exponent.  `readNumber?` reads a
double: an optional sign, then a decimal, or `inf`, `infinity` or `nan` in either case.
-/

namespace Spreadsheet

/-- The number `digits * 10 ^ exponent`. -/
structure Decimal where
  digits : Nat
  exponent : Int
deriving DecidableEq, Repr

namespace Decimal

/-- The powers of ten. -/
def tenTo (n : Nat) : Nat := Nat.pow 10 n

/-- A decimal as a fraction: its numerator and its denominator. -/
def fraction (d : Decimal) : Nat × Nat :=
  (d.digits * tenTo d.exponent.toNat, tenTo (-d.exponent).toNat)

/-- The magnitude of the double nearest to a decimal.  Exponents that lead beyond every double or
below the least one are settled without raising ten to them. -/
def magnitude (d : Decimal) : Nat :=
  if d.digits = 0 then 0
  else if 400 < d.exponent then Binary64.infinity
  else if d.exponent + 400 + d.digits.log2 < 0 then 0
  else Binary64.nearest d.fraction.1 d.fraction.2

/-- The value of an exponent's digits with an optional sign. -/
def exponentOf? (cs : List Char) : Option Int :=
  let digits (ds : List Char) : Option Nat :=
    if ds.isEmpty || !ds.all Char.isDigit then none else some (Nat.ofDigitChars 10 ds 0)
  match cs with
  | '-' :: ds => (digits ds).map fun n => -(n : Int)
  | '+' :: ds => (digits ds).map fun n => (n : Int)
  | ds => (digits ds).map fun n => (n : Int)

/-- What may follow the digits: nothing, or `e` or `E` and an exponent. -/
def suffixExponent? : List Char → Option Int
  | [] => some 0
  | c :: cs => if c = 'e' ∨ c = 'E' then exponentOf? cs else none

/-- Reads digits with an optional point among, before or after them, then an optional exponent. -/
def parse? (cs : List Char) : Option Decimal :=
  let whole := cs.takeWhile Char.isDigit
  let rest := cs.dropWhile Char.isDigit
  let (places, rest) := match rest with
    | '.' :: r => (r.takeWhile Char.isDigit, r.dropWhile Char.isDigit)
    | r => ([], r)
  if whole.isEmpty && places.isEmpty then none
  else (suffixExponent? rest).map fun e =>
    ⟨Nat.ofDigitChars 10 (whole ++ places) 0, e - places.length⟩

/-- Digits with a point `places` digits from the right; a number below one starts with `0.`. -/
def withPoint (ds : List Char) (places : Nat) : List Char :=
  if places < ds.length then
    ds.take (ds.length - places) ++ '.' :: ds.drop (ds.length - places)
  else
    '0' :: '.' :: (List.replicate (places - ds.length) '0' ++ ds)

/-- Decimal notation without exponent. -/
def text (d : Decimal) : List Char :=
  let ds := Nat.toDigits 10 d.digits
  if 0 ≤ d.exponent then ds ++ List.replicate d.exponent.toNat '0'
  else withPoint ds (-d.exponent).toNat

end Decimal

/-- The magnitude that an unsigned numeral stands for. -/
def magnitude? (cs : List Char) : Option Nat :=
  let lower := cs.map Char.toLower
  if lower = ['i', 'n', 'f'] ∨ lower = ['i', 'n', 'f', 'i', 'n', 'i', 't', 'y'] then
    some Binary64.infinity
  else if lower = ['n', 'a', 'n'] then some (Binary64.infinity + Binary64.exponentWeight / 2)
  else (Decimal.parse? cs).map Decimal.magnitude

/-- Reads a number: the double nearest to what the text says. -/
def readNumber? : List Char → Option Float
  | '-' :: cs => (magnitude? cs).map (Binary64.ofMagnitude true)
  | '+' :: cs => (magnitude? cs).map (Binary64.ofMagnitude false)
  | cs => (magnitude? cs).map (Binary64.ofMagnitude false)

end Spreadsheet
