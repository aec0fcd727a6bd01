/-!
# Spreadsheet.Number.Binary64 — the parts of a double and the double nearest to a quotient

A double has a sign and a magnitude.  The magnitude is the number formed by its low 63 bits:
doubles of one sign are ordered as their magnitudes are, zero is 0 and infinity is `infinity`; what
lies above is no number.  A finite magnitude stands for `significand * 2 ^ exponent`.

`nearest num den` is the magnitude of the double nearest to the quotient `num / den`; of two
equally near doubles it takes the one with the even significand, and beyond the largest double it
is `infinity`.
-/

namespace Spreadsheet.Binary64

/-- What the sign bit counts, the 63rd power of two. -/
abbrev signWeight : Nat := 0x8000000000000000

/-- What the lowest bit of the exponent counts, the 52nd power of two. -/
abbrev exponentWeight : Nat := 0x10000000000000

/-- The magnitude of infinity, where all eleven bits of the exponent are set. -/
abbrev infinity : Nat := 0x7FF0000000000000

/-- Whether a double carries a minus sign; `-0` does. -/
def isNegative (x : Float) : Bool := signWeight ≤ x.toBits.toNat

/-- The magnitude of a double. -/
def magnitude (x : Float) : Nat := x.toBits.toNat % signWeight

/-- The double with this sign and magnitude. -/
def ofMagnitude (negative : Bool) (mag : Nat) : Float :=
  Float.ofBits (UInt64.ofNat (if negative then mag + signWeight else mag))

/-- The significand of a finite magnitude. -/
def significand (mag : Nat) : Nat :=
  if mag < exponentWeight then mag else exponentWeight + mag % exponentWeight

/-- The power of two that a finite magnitude's significand counts. -/
def exponent (mag : Nat) : Int := (max (mag / exponentWeight) 1 : Nat) - 1075

/-- A finite magnitude as a fraction: its numerator and its denominator. -/
def fraction (mag : Nat) : Nat × Nat :=
  (significand mag <<< (exponent mag).toNat, 1 <<< (-exponent mag).toNat)

/-- The quotient `num / den` rounded to a whole number, a half to the even neighbour. -/
def roundHalfEven (num den : Nat) : Nat :=
  let q := num / den
  let r := num % den
  if den < 2 * r ∨ (2 * r = den ∧ q % 2 = 1) then q + 1 else q

/-- Numerator and denominator of `num / den / 2 ^ e`. -/
def scaled (num den : Nat) (e : Int) : Nat × Nat := (num <<< (-e).toNat, den <<< e.toNat)

/-- The power of two that the last place of the nearest double counts: the quotient then has 53
binary digits before the point, or the power is the least there is. -/
def unit (num den : Nat) : Int :=
  let e := max ((num.log2 : Int) - den.log2 - 53) (-1074)
  let s := scaled num den e
  if s.1 / s.2 < 2 * exponentWeight then e else e + 1

/-- The magnitude of the double nearest to `num / den`. -/
def nearest (num den : Nat) : Nat :=
  if num = 0 then 0
  else
    let e := unit num den
    let s := scaled num den e
    min ((e + 1074).toNat * exponentWeight + roundHalfEven s.1 s.2) infinity

/-- The magnitude of the double nearest to the product of two finite magnitudes. -/
def product (a b : Nat) : Nat :=
  nearest ((fraction a).1 * (fraction b).1) ((fraction a).2 * (fraction b).2)

/-- The double nearest to a natural number. -/
def ofNat (n : Nat) : Float := ofMagnitude false (nearest n 1)

/-- The double rounded to a whole number, a half away from zero.  The sign stays. -/
def roundHalfAway (x : Float) : Float :=
  let mag := magnitude x
  let e := exponent mag
  if 0 ≤ e then x
  else
    let k := (-e).toNat
    ofMagnitude (isNegative x) (nearest ((significand mag + 1 <<< (k - 1)) >>> k) 1)

end Spreadsheet.Binary64
