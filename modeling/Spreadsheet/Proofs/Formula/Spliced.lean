import Spreadsheet.Proofs.Arithmetic.Parsing
import Spreadsheet.Proofs.Formula.Language
import Spreadsheet.Proofs.Number.ReadBack

/-!
# Spreadsheet.Proofs.Formula.Spliced — numbers written into formulas

The text of a finite double is itself arithmetic: a numeral, a minus sign before one, or both in
parentheses.  Wherever an operand may stand it has the value of the double.  Infinity and what is no
number are written in letters, which are no arithmetic.
-/

namespace Spreadsheet

namespace Formula

open Arithmetic

/-- A finite magnitude as a numeral. -/
def Numeral.ofMagnitude (mag : Nat) (h : mag < Binary64.infinity) : Numeral where
  text := magnitudeText mag
  value := Binary64.ofMagnitude false mag
  filled := magnitudeText_ne_nil h
  isNumeral := fun _ hc => isNumeral_of_mem_magnitudeText h hc
  reads := readNumber?_magnitudeText h

section Text

variable {x : Float}

theorem spliced_of_nan (h : Binary64.infinity < Binary64.magnitude x) : spliced x = ['N', 'a', 'N'] := by
  have hlt : ¬ x < 0 := by
    rw [Binary64.lt_zero_iff]
    omega
  rw [spliced, if_neg hlt, numberText, if_pos h]

theorem spliced_eq (h : Binary64.magnitude x ≤ Binary64.infinity) : spliced x =
    if Binary64.isNegative x then
      if Binary64.magnitude x = 0 then '-' :: magnitudeText 0
      else '(' :: '-' :: (magnitudeText (Binary64.magnitude x) ++ [')'])
    else magnitudeText (Binary64.magnitude x) := by
  have hnan : ¬ Binary64.infinity < Binary64.magnitude x := by omega
  rw [spliced, numberText, if_neg hnan]
  by_cases hneg : Binary64.isNegative x = true
  · -- minus zero is not below zero, so it gets no parentheses
    by_cases h0 : Binary64.magnitude x = 0
    · have hlt : ¬ x < 0 := by
        rw [Binary64.lt_zero_iff]
        omega
      rw [if_neg hlt, if_pos hneg, if_pos hneg, if_pos h0, h0]
    · have hlt : x < 0 := by
        rw [Binary64.lt_zero_iff]
        exact ⟨hneg, Nat.pos_of_ne_zero h0, h⟩
      rw [if_pos hlt, if_pos hneg, if_pos hneg, if_neg h0]
      rfl
  · have hlt : ¬ x < 0 := by
      rw [Binary64.lt_zero_iff]
      exact fun h => hneg h.1
    rw [if_neg hlt, if_neg hneg, if_neg hneg]

theorem isArithmetic_of_isNumeral {c : Char} (h : Token.isNumeral c = true) :
    isArithmetic c = true := by
  rw [Token.isNumeral, Bool.or_eq_true] at h
  rcases h with h | h <;> simp [isArithmetic, h]

theorem isArithmetic_of_isMark {c : Char} (h : isMark c = true) : isArithmetic c = true := by
  rcases isMark_cases h with h | rfl | rfl | rfl | rfl | rfl | rfl
  · simp [isArithmetic, h]
  all_goals rfl

theorem evaluate_number (hx : x.isFinite = true) : (Expr.number x).evaluate = .ok x := by
  rw [Expr.evaluate, Expr.finite, if_pos hx]

theorem evaluate_neg_ofMagnitude {mag : Nat} (h : mag < Binary64.infinity) :
    (Expr.neg (.number (Binary64.ofMagnitude false mag))).evaluate =
      .ok (Binary64.ofMagnitude true mag) := by
  have hle := Nat.le_of_lt h
  have hfinite : ∀ negative, (Binary64.ofMagnitude negative mag).isFinite = true := by
    intro negative
    rw [Binary64.isFinite_iff, Binary64.magnitude_ofMagnitude hle]
    exact h
  have hneg : -Binary64.ofMagnitude false mag = Binary64.ofMagnitude true mag :=
    Binary64.neg_ofMagnitude hle
  rw [Expr.evaluate, evaluate_number (hfinite false), ← evaluate_number (hfinite true), ← hneg]
  rfl

/-- The text of a finite double is that of a phrase with the double as its value. -/
theorem exists_phrase_spliced (hx : x.isFinite = true) :
    ∃ s : Phrase Numeral .factor, s.text Numeral.text = spliced x ∧
      (s.expr fun n => .number n.value).evaluate = .ok x := by
  have h := (Binary64.isFinite_iff x).1 hx
  have hvalue := Binary64.ofMagnitude_magnitude (Nat.le_of_lt h)
  rw [spliced_eq (Nat.le_of_lt h)]
  -- minus zero is written with its sign only, other negative numbers in parentheses
  set n := Numeral.ofMagnitude (Binary64.magnitude x) h with hn
  split
  · rename_i hneg
    rw [hneg] at hvalue
    split
    · rename_i h0
      refine ⟨.minus (.operand n), ?_, ?_⟩
      · rw [Phrase.text_minus, ← h0]
        rfl
      · exact (evaluate_neg_ofMagnitude h).trans (congrArg _ hvalue)
    · refine ⟨.group (.alone (.single (.minus (.operand n)))), rfl, ?_⟩
      exact (evaluate_neg_ofMagnitude h).trans (congrArg _ hvalue)
  · rename_i hneg
    rw [Bool.not_eq_true] at hneg
    rw [hneg] at hvalue
    refine ⟨.operand n, rfl, ?_⟩
    rw [← evaluate_number hx]
    exact congrArg (fun y => (Expr.number y).evaluate) hvalue

theorem spliced_of_not_isFinite (hx : x.isFinite = false) :
    spliced x ∈ [['N', 'a', 'N'], ['i', 'n', 'f'], ['(', '-', 'i', 'n', 'f', ')']] := by
  have h : ¬ Binary64.magnitude x < Binary64.infinity := by
    rw [← Binary64.isFinite_iff, hx]
    exact Bool.false_ne_true
  by_cases hnan : Binary64.infinity < Binary64.magnitude x
  · rw [spliced_of_nan hnan]
    exact List.mem_cons_self
  · have hinf : Binary64.magnitude x = Binary64.infinity := by omega
    have htext : magnitudeText Binary64.infinity = ['i', 'n', 'f'] := by decide
    rw [spliced_eq (Nat.le_of_eq hinf), hinf, htext,
      if_neg (show ¬ Binary64.infinity = 0 by decide)]
    split <;> decide

/-- A double is written as arithmetic exactly when it is finite. -/
theorem all_isArithmetic_spliced (x : Float) : (spliced x).all isArithmetic = x.isFinite := by
  cases hx : x.isFinite with
  | false =>
    have hall : ∀ cs ∈ [['N', 'a', 'N'], ['i', 'n', 'f'], ['(', '-', 'i', 'n', 'f', ')']],
        cs.all isArithmetic = false := by decide
    exact hall _ (spliced_of_not_isFinite hx)
  | true =>
    obtain ⟨s, htext, -⟩ := exists_phrase_spliced hx
    rw [← htext, Phrase.all_text fun c hc => isArithmetic_of_isMark hc]
    refine List.all_eq_true.2 fun n _ => List.all_eq_true.2 fun c hc => ?_
    exact isArithmetic_of_isNumeral (n.isNumeral c hc)

end Text

end Formula

end Spreadsheet
