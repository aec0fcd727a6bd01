/-!
# Spreadsheet.Word — the machine words that coordinates, counts and screen columns live in

Row and column numbers, sizes and times are natural numbers below `Word.size`; screen coordinates
are natural numbers below `Word.shortSize`.  Where a sum may leave that range, either there is no
result (`add?`, `sub?`, `offset?`), or it stops at the largest word (`addSaturating`).  A sum without
a result stops the program, except for `offset?`, whose caller goes on without it.  `add` stands where
no sum leaves the words in a sheet that is open.
-/

namespace Spreadsheet.Word

/-- One more than the largest 64-bit word. -/
abbrev size : Nat := 18446744073709551616

/-- One more than the largest 16-bit word. -/
abbrev shortSize : Nat := 65536

/-- Sum of two 64-bit words, if it is one. -/
def add? (a b : Nat) : Option Nat := if a + b < size then some (a + b) else none

/-- Difference of two 64-bit words, if it is one. -/
def sub? (a b : Nat) : Option Nat := if b ≤ a then some (a - b) else none

/-- Sum of two 64-bit words that is one; beyond the words the low 64 bits of it. -/
def add (a b : Nat) : Nat := (a + b) % size

/-- Sum of two 64-bit words, stopping at the largest one. -/
def addSaturating (a b : Nat) : Nat := min (a + b) (size - 1)

/-- A 64-bit word moved by a signed amount, unless the result is no 64-bit word. -/
def offset? (a : Nat) (d : Int) : Option Nat :=
  let s := (a : Int) + d
  if 0 ≤ s ∧ s < (size : Int) then some s.toNat else none

/-- Sum of two 16-bit words, wrapping round. -/
def shortAdd (a b : Nat) : Nat := (a + b) % shortSize

/-- The low 16 bits of a number. -/
def short (a : Nat) : Nat := a % shortSize

/-! ### Sums that are words -/

theorem add_eq {a b : Nat} (h : a + b < size) : add a b = a + b := Nat.mod_eq_of_lt h

@[simp] theorem add?_eq_some_iff {a b c : Nat} : add? a b = some c ↔ a + b < size ∧ a + b = c := by
  simp [add?]

@[simp] theorem add?_eq_none_iff {a b : Nat} : add? a b = none ↔ size ≤ a + b := by
  simp [add?]

theorem add?_eq {a b : Nat} (h : a + b < size) : add? a b = some (a + b) := if_pos h

@[simp] theorem sub?_eq_some_iff {a b c : Nat} : sub? a b = some c ↔ b ≤ a ∧ a - b = c := by
  simp [sub?]

theorem sub?_eq {a b : Nat} (h : b ≤ a) : sub? a b = some (a - b) := if_pos h

theorem shortAdd_eq {a b : Nat} (h : a + b < shortSize) : shortAdd a b = a + b :=
  Nat.mod_eq_of_lt h

end Spreadsheet.Word
