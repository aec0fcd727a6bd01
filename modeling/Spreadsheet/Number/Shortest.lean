import Spreadsheet.Number.Decimal

/-!
# Spreadsheet.Number.Shortest — the shortest text of a double

A finite double is written with the fewest decimal digits that read back as the same double; of
several such numerals it takes the nearest, and of two equally near ones the larger.  The notation
has no exponent and no point unless there are digits behind it.
-/

namespace Spreadsheet

namespace Decimal

/-- The exponent of the highest power of ten that is no larger than the fraction `num / den`. -/
def decade (num den : Nat) : Int :=
  if den ≤ num then ((Nat.toDigits 10 (num / den)).length : Int) - 1
  else -((Nat.toDigits 10 ((den + num - 1) / num - 1)).length : Int)

/-- Numerator and denominator of `num / den / 10 ^ e`. -/
def scaled (num den : Nat) (e : Int) : Nat × Nat := (num * tenTo (-e).toNat, den * tenTo e.toNat)

/-- Ten units are one unit of the next power of ten. -/
def ofUnits (n : Nat) (e : Int) : Decimal := if n = 10 then ⟨1, e + 1⟩ else ⟨n, e⟩

/-- Of the two multiples of `10 ^ e` next to a magnitude, the nearer one that reads back as it. -/
def neighbour? (mag : Nat) (e : Int) : Option Decimal :=
  let f := Binary64.fraction mag
  let s := scaled f.1 f.2 e
  let below := ofUnits (s.1 / s.2) e
  let above := ofUnits (s.1 / s.2 + 1) e
  let nearer := if 2 * (s.1 % s.2) < s.2 then [below, above] else [above, below]
  nearer.find? fun d => d.magnitude = mag

/-- All digits of a magnitude. -/
def exact (mag : Nat) : Decimal :=
  let s := Binary64.significand mag
  let e := Binary64.exponent mag
  if 0 ≤ e then ⟨s <<< e.toNat, 0⟩ else ⟨(s * tenTo (-e).toNat) >>> (-e).toNat, e⟩

/-- The numbers of digits behind the first one that are tried.  No two numerals of 15 digits read
back as the same double of full precision, so the one that does is the shortest one, with zeros
behind it. -/
def laterDigits (mag : Nat) : List Nat :=
  if mag < Binary64.exponentWeight then List.range 17 else [14, 15, 16]

/-- A decimal without zeros at its end, of which at most `n` are dropped. -/
def withoutZeros : Nat → Decimal → Decimal
  | 0, d => d
  | n + 1, d => if d.digits % 10 = 0 then withoutZeros n ⟨d.digits / 10, d.exponent + 1⟩ else d

/-- The shortest decimal that reads back as the magnitude. -/
def shortest (mag : Nat) : Decimal :=
  let f := Binary64.fraction mag
  let top := decade f.1 f.2
  let found := (laterDigits mag).findSome? fun (n : Nat) => neighbour? mag (top - n)
  (found.map (withoutZeros 17)).getD (exact mag)

end Decimal

/-- The text of an unsigned number that is not NaN. -/
def magnitudeText (mag : Nat) : List Char :=
  if mag = 0 then ['0']
  else if mag = Binary64.infinity then ['i', 'n', 'f']
  else (Decimal.shortest mag).text

/-- The text of a number. -/
def numberText (x : Float) : List Char :=
  if Binary64.infinity < Binary64.magnitude x then ['N', 'a', 'N']
  else if Binary64.isNegative x then '-' :: magnitudeText (Binary64.magnitude x)
  else magnitudeText (Binary64.magnitude x)

end Spreadsheet
