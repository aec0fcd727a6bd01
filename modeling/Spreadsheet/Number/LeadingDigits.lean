import Spreadsheet.Number.Decimal
import Spreadsheet.Word

/-!
# Spreadsheet.Number.LeadingDigits — numerals cut to the digits that fit in a word

`Decimal.leading` reads a numeral from its first digit on, as long as the digits form a 64-bit word.
The digits before the point that are left out still raise the power of ten, those behind it do not
count at all.  `Decimal.staysFinite` tells whether the product of such a word and its power of ten is
finite when both factors are rounded to doubles before the product is.

Near the largest double the parts matter and not only the value: a numeral may stay finite in one
spelling and not in another one of the same number.
-/

namespace Spreadsheet.Decimal

/-- Whether a word can take one more digit at its end. -/
def takesDigit (n : Nat) (digit : Char) : Bool := Nat.ofDigitChars 10 [digit] n < Word.size

/-- The digits before the point, behind those that form `n`.  Where one does not fit, it and all that
follow are left out, and each of them raises the power of ten. -/
def leadingWhole (n : Nat) : List Char → Decimal
  | [] => ⟨n, 0⟩
  | d :: ds =>
    if takesDigit n d then leadingWhole (Nat.ofDigitChars 10 [d] n) ds else ⟨n, ds.length + 1⟩

/-- The digits behind the point, added to the number before them.  Where one does not fit, it and all
that follow are lost. -/
def leadingPlaces (x : Decimal) : List Char → Decimal
  | [] => x
  | d :: ds =>
    if takesDigit x.digits d then
      leadingPlaces ⟨Nat.ofDigitChars 10 [d] x.digits, x.exponent - 1⟩ ds
    else x

/-- A numeral with these digits before and behind the point and this exponent, cut to a word. -/
def leading (whole places : List Char) (exponent : Int) : Decimal :=
  let x := leadingPlaces (leadingWhole 0 whole) places
  ⟨x.digits, x.exponent + exponent⟩

/-- The exponent of the largest power of ten that is a finite double. -/
def largestPower : Int := 308

/-- Whether digits and power of ten have a finite product, all three being rounded to doubles.  A
negative power divides and stays finite, and so does zero with any power. -/
def staysFinite (x : Decimal) : Bool :=
  x.digits = 0 || x.exponent < 0 ||
    (x.exponent ≤ largestPower &&
      Binary64.product (Binary64.nearest x.digits 1)
        (Binary64.nearest (tenTo x.exponent.toNat) 1) < Binary64.infinity)

end Spreadsheet.Decimal
