import Mathlib.Tactic.SplitIfs
import Spreadsheet.Proofs.Json.Spelled

/-!
# Spreadsheet.Proofs.Json.Quoted — texts in quotes are read back

A written character, escaped or not, spells one unit that stands for it.  Written texts hold no
surrogates, so the units are the text.
-/

namespace Spreadsheet

namespace JsonTree

open JsonValue

/-- A control character is escaped by its two last hexadecimal digits. -/
theorem spelledCode_control {n : Nat} (h : n < 0x20) :
    SpelledCode n ['0', '0', hexDigit (n / 16), hexDigit n] := by
  have hall : ∀ n < 0x20, hexValue? (hexDigit (n / 16)) = some (n / 16) ∧
      hexValue? (hexDigit n) = some (n % 16) := by decide
  have hzero : hexValue? '0' = some 0 := by decide
  have hcode := SpelledCode.digits hzero hzero (hall n h).1 (hall n h).2
  have hvalue : ((0 * 16 + 0) * 16 + n / 16) * 16 + n % 16 = n := by omega
  rwa [hvalue] at hcode

/-- A written character spells itself. -/
theorem spelledUnit_escape (c : Char) : SpelledUnit (.char c) (escape c) := by
  unfold escape
  split_ifs with hquote hslash hback htab hline hform hreturn hcontrol
  · subst hquote
    exact .simple rfl
  · subst hslash
    exact .simple rfl
  · subst hback
    exact .simple rfl
  · subst htab
    exact .simple rfl
  · subst hline
    exact .simple rfl
  · subst hform
    exact .simple rfl
  · subst hreturn
    exact .simple rfl
  · have hunit : unitOf c.toNat = .char c := by
      rw [unitOf, if_neg (by omega), Char.ofNat_toNat]
    exact hunit ▸ .code (spelledCode_control hcontrol)
  · exact .plain hquote hslash hcontrol

theorem spelledUnits_quoted (cs : List Char) :
    SpelledUnits (cs.map .char) (cs.flatMap escape) := by
  induction cs with
  | nil => exact .nil
  | cons c cs ih => exact .cons (spelledUnit_escape c) ih

theorem pairUnits_char (cs : List Char) : pairUnits none (cs.map .char) = .ok cs := by
  induction cs with
  | nil => rfl
  | cons c cs ih =>
    rw [List.map_cons, pairUnits, ih]
    rfl

/-- A text in quotes spells its characters. -/
theorem spelled_quoted (cs : List Char) : Spelled (.text (.ok cs)) (quoted cs) := by
  rw [← pairUnits_char cs]
  exact .text (spelledUnits_quoted cs)

end JsonTree

end Spreadsheet
