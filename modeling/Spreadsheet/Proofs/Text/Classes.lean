import Spreadsheet.Text.Blank
import Spreadsheet.Text.DecimalDigit
import Spreadsheet.Text.UpperCase

/-!
# Spreadsheet.Proofs.Text.Classes — the kinds of characters in a formula

Letters, digits and blanks as ranges of code points, which keeps them apart, and what upper case does
to each of them.  A text is cut where a run of one kind ends.
-/

namespace Spreadsheet.Text

/-! ### Runs -/

section Runs

variable {p : Char → Bool} {run cs : List Char}

theorem takeWhile_append (h : ∀ c ∈ run, p c = true) (hcs : ∀ c ∈ cs.head?, p c = false) :
    (run ++ cs).takeWhile p = run := by
  rw [List.takeWhile_append_of_pos h]
  cases cs with
  | nil => rw [List.takeWhile_nil, List.append_nil]
  | cons c cs =>
    rw [List.takeWhile_cons_of_neg (by rw [hcs c rfl]; exact Bool.false_ne_true), List.append_nil]

theorem dropWhile_append (h : ∀ c ∈ run, p c = true) (hcs : ∀ c ∈ cs.head?, p c = false) :
    (run ++ cs).dropWhile p = cs := by
  rw [List.dropWhile_append_of_pos h]
  cases cs with
  | nil => rfl
  | cons c cs => rw [List.dropWhile_cons_of_neg (by rw [hcs c rfl]; exact Bool.false_ne_true)]

/-- Nothing is trimmed from a text without blanks. -/
theorem trim_eq_self (h : ∀ c ∈ cs, isBlank c = false) : trim cs = cs := by
  have hstart {cs : List Char} (hcs : ∀ c ∈ cs, isBlank c = false) : trimStart cs = cs :=
    dropWhile_append (List.forall_mem_nil _) fun c hc => hcs c (List.mem_of_head? hc)
  have hend : trimStart cs.reverse = cs.reverse := hstart fun c hc => h c (List.mem_reverse.1 hc)
  rw [trim, hstart h, trimEnd, hend, List.reverse_reverse]

end Runs

/-! ### Ranges of code points -/

section Ranges

variable {c : Char}

theorem isDigit_iff : c.isDigit = true ↔ 48 ≤ c.toNat ∧ c.toNat ≤ 57 := Char.isDigit_iff_toNat

theorem isUpper_iff : c.isUpper = true ↔ 65 ≤ c.toNat ∧ c.toNat ≤ 90 := decide_eq_true_iff

theorem isLower_iff : c.isLower = true ↔ 97 ≤ c.toNat ∧ c.toNat ≤ 122 :=
  (Bool.and_eq_true_iff).trans (and_congr decide_eq_true_iff decide_eq_true_iff)

theorem isAlpha_iff : c.isAlpha = true ↔ c.isUpper = true ∨ c.isLower = true :=
  Bool.or_eq_true_iff

theorem isDigit_of_mem_toDigits {n : Nat} (h : c ∈ Nat.toDigits 10 n) : c.isDigit = true :=
  Nat.isDigit_of_mem_toDigits (by decide) (by decide) h

theorem not_isUpper_of_isDigit (h : c.isDigit = true) : c.isUpper = false := by
  rw [isDigit_iff] at h
  rw [← Bool.not_eq_true, isUpper_iff]
  omega

theorem not_isLower_of_isDigit (h : c.isDigit = true) : c.isLower = false := by
  rw [isDigit_iff] at h
  rw [← Bool.not_eq_true, isLower_iff]
  omega

theorem not_isAlpha_of_isDigit (h : c.isDigit = true) : c.isAlpha = false := by
  rw [← Bool.not_eq_true, isAlpha_iff, not_isUpper_of_isDigit h, not_isLower_of_isDigit h, or_self]
  exact Bool.false_ne_true

theorem not_isDigit_of_isUpper (h : c.isUpper = true) : c.isDigit = false := by
  rw [← Bool.not_eq_true]
  intro hd
  rw [not_isUpper_of_isDigit hd] at h
  exact Bool.false_ne_true h

theorem not_isLower_of_isUpper (h : c.isUpper = true) : c.isLower = false := by
  rw [isUpper_iff] at h
  rw [← Bool.not_eq_true, isLower_iff]
  omega

/-- The code points of the blanks. -/
def blankCodes : List Nat :=
  [0x9, 0xA, 0xB, 0xC, 0xD, 0x20, 0x85, 0xA0, 0x1680, 0x2000, 0x2001, 0x2002, 0x2003, 0x2004, 0x2005,
    0x2006, 0x2007, 0x2008, 0x2009, 0x200A, 0x2028, 0x2029, 0x202F, 0x205F, 0x3000]

theorem mem_blankCodes (h : isBlank c = true) : c.toNat ∈ blankCodes := by
  simp only [isBlank, Bool.or_eq_true, Bool.and_eq_true, decide_eq_true_eq, beq_iff_eq] at h
  simp only [blankCodes, List.mem_cons, List.not_mem_nil, or_false]
  omega

theorem not_isDigit_of_isBlank (h : isBlank c = true) : c.isDigit = false := by
  have hcode : ∀ n ∈ blankCodes, ¬ (48 ≤ n ∧ n ≤ 57) := by decide
  rw [← Bool.not_eq_true, isDigit_iff]
  exact hcode _ (mem_blankCodes h)

theorem not_isUpper_of_isBlank (h : isBlank c = true) : c.isUpper = false := by
  have hcode : ∀ n ∈ blankCodes, ¬ (65 ≤ n ∧ n ≤ 90) := by decide
  rw [← Bool.not_eq_true, isUpper_iff]
  exact hcode _ (mem_blankCodes h)

theorem not_isDecimalDigit_of_isBlank (h : isBlank c = true) : isDecimalDigit c = false := by
  have hcode : ∀ n ∈ blankCodes, (decimalZeros.any fun z => z ≤ n && n < z + 10) = false := by
    decide +kernel
  rw [isDecimalDigit, not_isDigit_of_isBlank h, hcode _ (mem_blankCodes h), Bool.and_false,
    Bool.or_false]

theorem ne_of_isBlank {d : Char} (h : isBlank c = true) (hd : isBlank d = false) : c ≠ d := by
  rintro rfl
  rw [h] at hd
  exact Bool.noConfusion hd

/-! ### Upper case -/

theorem toUpper_of_not_isLower (h : c.isLower = false) : c.toUpper = c := by
  rw [← Bool.not_eq_true, isLower_iff] at h
  exact dif_neg h

theorem isUpper_toUpper (h : c.isAlpha = true) : c.toUpper.isUpper = true := by
  rcases isAlpha_iff.1 h with hup | hlow
  · rwa [toUpper_of_not_isLower (not_isLower_of_isUpper hup)]
  · have hcode : ∀ n < 123, 97 ≤ n → (Char.ofNat n).toUpper.isUpper = true := by decide
    rw [isLower_iff] at hlow
    rw [← Char.ofNat_toNat c]
    exact hcode _ (by omega) hlow.1

theorem toUpper_toUpper (h : c.isAlpha = true) : c.toUpper.toUpper = c.toUpper :=
  toUpper_of_not_isLower (not_isLower_of_isUpper (isUpper_toUpper h))

theorem upperCaseChar_of_isAlpha (h : c.isAlpha = true) : upperCaseChar c = [c.toUpper] := by
  rw [upperCaseChar, if_pos]
  rw [isAlpha_iff, isUpper_iff, isLower_iff] at h
  omega

theorem upperCaseChar_of_not_isLower (h : c.isLower = false) (hc : c.toNat < 0x80) :
    upperCaseChar c = [c] := by
  rw [upperCaseChar, if_pos hc, toUpper_of_not_isLower h]

theorem upperCaseChar_of_isDigit (h : c.isDigit = true) : upperCaseChar c = [c] := by
  have hascii : c.toNat < 0x80 := by
    rw [isDigit_iff] at h
    omega
  exact upperCaseChar_of_not_isLower (not_isLower_of_isDigit h) hascii

theorem upperCaseChar_of_isBlank (h : isBlank c = true) : upperCaseChar c = [c] := by
  have hlower : c.isLower = false := by
    have hcode : ∀ n ∈ blankCodes, ¬ (97 ≤ n ∧ n ≤ 122) := by decide
    rw [← Bool.not_eq_true, isLower_iff]
    exact hcode _ (mem_blankCodes h)
  have hspecial : specialUpperCase.lookup c = none := by
    have hnot : ∀ e ∈ specialUpperCase, isBlank e.1 = false := by decide
    rw [List.lookup_eq_none_iff]
    exact fun e he => bne_iff_ne.2 (ne_of_isBlank h (hnot e he))
  rw [upperCaseChar, hspecial, toUpper_of_not_isLower hlower, Option.getD_none, ite_self]

end Ranges

end Spreadsheet.Text
