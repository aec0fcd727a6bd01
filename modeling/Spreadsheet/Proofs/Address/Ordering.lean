import Mathlib.Data.List.Shortlex
import Mathlib.Data.String.Basic
import Spreadsheet.Proofs.Address.Name

/-!
# Spreadsheet.Proofs.Address.Ordering — names of columns are in the order of the columns

Letters of which none stands for zero have larger values when there are more of them, and of equally
many those that come later in the alphabet have the larger value.  So their value is increasing for
the order that looks at the length first and at the letters then.  Since every column is the value of
its name, names are in this order exactly if their columns are in the order of numbers.
-/

namespace Spreadsheet

namespace Column

section Value

variable {cs ds : List Char}

theorem rank_of_isUpper {c : Char} (h : c.isUpper = true) : rank c = c.toNat - 64 := by
  rw [rank, Text.toUpper_of_not_isLower (Text.not_isLower_of_isUpper h)]

theorem rank_lt_rank {c d : Char} (hc : c.isUpper = true) (hd : d.isUpper = true) (h : c < d) :
    rank c < rank d := by
  have hlt : c.toNat < d.toNat := h
  rw [Text.isUpper_iff] at *
  rw [rank_of_isUpper (Text.isUpper_iff.2 hc), rank_of_isUpper (Text.isUpper_iff.2 hd)]
  omega

/-- The least and the largest value of so many letters: those of `A…A` and of `Z…Z`. -/
theorem value_bounds (h : ∀ c ∈ cs, c.isUpper = true) :
    26 ^ cs.length ≤ value cs * 25 + 1 ∧ value cs * 25 + 26 ≤ 26 ^ (cs.length + 1) := by
  induction cs with
  | nil => simp [value]
  | cons c cs ih =>
    obtain ⟨hc, hcs⟩ := List.forall_mem_cons.1 h
    obtain ⟨hleast, hlargest⟩ := ih hcs
    obtain ⟨hone, hlast⟩ := rank_bounds (Text.isAlpha_iff.2 (.inl hc))
    have hlow := Nat.mul_le_mul_right (26 ^ cs.length) hone
    have hhigh := Nat.mul_le_mul_right (26 ^ cs.length) hlast
    rw [value, List.length_cons]
    simp only [Nat.pow_succ] at *
    omega

/-- A change of the length outweighs all letters: `Z…Z` comes right before `A…A` with one letter
more. -/
theorem value_lt_of_length_lt (hcs : ∀ c ∈ cs, c.isUpper = true) (hds : ∀ c ∈ ds, c.isUpper = true)
    (h : cs.length < ds.length) : value cs < value ds := by
  have hlargest := (value_bounds hcs).2
  have hleast := (value_bounds hds).1
  have hpow : 26 ^ (cs.length + 1) ≤ 26 ^ ds.length := Nat.pow_le_pow_right (by decide) h
  omega

/-- Of equally many letters the first difference decides. -/
theorem value_lt_of_lex (hcs : ∀ c ∈ cs, c.isUpper = true) (hds : ∀ c ∈ ds, c.isUpper = true)
    (hlength : cs.length = ds.length) (h : List.Lex (· < ·) cs ds) : value cs < value ds := by
  induction h with
  | nil => cases hlength
  | @rel c cs d ds hlt =>
    obtain ⟨hc, hcs⟩ := List.forall_mem_cons.1 hcs
    obtain ⟨hd, hds⟩ := List.forall_mem_cons.1 hds
    rw [List.length_cons, List.length_cons, Nat.add_right_cancel_iff] at hlength
    have hlargest := (value_bounds hcs).2
    have hleast := (value_bounds hds).1
    -- one step of the first letter is worth more than the letters behind it can make up for
    have hstep := Nat.mul_le_mul_right (26 ^ ds.length) (rank_lt_rank hc hd hlt)
    rw [value, value, hlength]
    simp only [hlength, Nat.pow_succ, Nat.succ_mul] at *
    omega
  | cons _ ih =>
    obtain ⟨-, hcs⟩ := List.forall_mem_cons.1 hcs
    obtain ⟨-, hds⟩ := List.forall_mem_cons.1 hds
    rw [List.length_cons, List.length_cons, Nat.add_right_cancel_iff] at hlength
    have hrest := ih hcs hds hlength
    rw [value, value, hlength]
    omega

theorem value_lt_of_shortlex (hcs : ∀ c ∈ cs, c.isUpper = true) (hds : ∀ c ∈ ds, c.isUpper = true)
    (h : List.Shortlex (· < ·) cs ds) : value cs < value ds := by
  rcases List.shortlex_def.1 h with hshorter | ⟨hlength, hlex⟩
  · exact value_lt_of_length_lt hcs hds hshorter
  · exact value_lt_of_lex hcs hds hlength hlex

end Value

section Names

variable {a b : Nat}

theorem lt_of_shortlex (h : List.Shortlex (· < ·) (letters a) (letters b)) : a < b := by
  have hvalue := value_lt_of_shortlex (fun _ => isUpper_of_mem_letters)
    (fun _ => isUpper_of_mem_letters) h
  rw [value_letters, value_letters] at hvalue
  omega

theorem letters_injective (h : letters a = letters b) : a = b := by
  have hvalue := congrArg value h
  rw [value_letters, value_letters] at hvalue
  omega

/-- The letters of columns are in the order of the columns. -/
theorem shortlex_letters_iff : List.Shortlex (· < ·) (letters a) (letters b) ↔ a < b := by
  refine ⟨lt_of_shortlex, fun hlt => ?_⟩
  by_contra hnot
  have hnot' : ¬ List.Shortlex (· < ·) (letters b) (letters a) := fun h =>
    Nat.lt_asymm hlt (lt_of_shortlex h)
  have heq := Std.Trichotomous.trichotomous (letters a) (letters b) hnot hnot'
  exact Nat.ne_of_lt hlt (letters_injective heq)

end Names

/-- A column stands before another one exactly if its name has fewer letters, or equally many and
comes first in the alphabet; every name is one or more of the letters from `A` to `Z`. -/
theorem name_lt_iff (a b : Nat) :
    (a < b ↔ (name a).length < (name b).length ∨
      (name a).length = (name b).length ∧ name a < name b) ∧
    name a ≠ "" ∧ ∀ c ∈ (name a).toList, 'A' ≤ c ∧ c ≤ 'Z' := by
  have hletters (n : Nat) : (name n).toList = letters n := String.toList_ofList
  refine ⟨?_, fun hempty => ?_, fun c hc => ?_⟩
  · rw [← shortlex_letters_iff, List.shortlex_def, ← String.length_toList, ← String.length_toList,
      String.lt_iff_toList_lt, hletters, hletters]
    rfl
  · exact letters_ne_nil a (by rw [← hletters, hempty]; rfl)
  · rw [hletters] at hc
    have hup := Text.isUpper_iff.1 (isUpper_of_mem_letters hc)
    exact ⟨hup.1, hup.2⟩

/-- The last name of two letters and the first one of three, and the last column that there is. -/
example : name 701 = "ZZ" ∧ name 702 = "AAA" ∧ name (Word.size - 1) = "GKGWBYLWRXTLPP" := by
  decide +kernel

end Column

end Spreadsheet
