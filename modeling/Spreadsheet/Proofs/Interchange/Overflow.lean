import Spreadsheet.Proofs.Grid.Within
import Spreadsheet.Proofs.Interchange.Pasting

/-!
# Spreadsheet.Proofs.Interchange.Overflow — pastes that count beyond the words

Where a field goes is counted from the cell at which its text is pasted, before it is tested whether
that is on the sheet, and so are the row and the column behind the block.  So a paste does what it is
meant to do (`PastesExactly`) exactly if the block ends in the words.  Otherwise it has no result, also
where every cell that it would count beyond the words is off the sheet.
-/

namespace Spreadsheet

namespace Interchange

section Defs

/-- What a paste is to do, with places counted without end: each field that belongs on the sheet is
in its cell, or has cleared it, all other cells are as they were, and the range is the block cut off
at the end of the sheet. -/
def PastesExactly (text : String) (origin : Position) (g : Grid) (d : Dimensions) : Prop :=
  ∃ g', paste? text origin g d = some (some ⟨origin, d.nearest
      ⟨origin.row + ((fieldRows text).length - 1), origin.col + (widest (fieldRows text) - 1)⟩⟩, g') ∧
    (∀ i j t, fieldAt (fieldRows text) i j = some t →
      d.contains ⟨origin.row + i, origin.col + j⟩ = true →
      g'.get? ⟨origin.row + i, origin.col + j⟩ = if Text.isBlankText t = true then none else some t) ∧
    ∀ q, (∀ i j t, fieldAt (fieldRows text) i j = some t →
      q = ⟨origin.row + i, origin.col + j⟩ → d.contains q = false) → g'.get? q = g.get? q

/-- Every sum that counts the places of a block's fields and its last cell is a word. -/
structure CountsExactly (origin : Position) (height width : Nat) : Prop where
  row : ∀ i < height, Word.add? origin.row i = some (origin.row + i)
  col : ∀ j < width, Word.add? origin.col j = some (origin.col + j)
  stopRow : Word.add? origin.row height = some (origin.row + height)
  stopCol : Word.add? origin.col width = some (origin.col + width)

end Defs

section Paste

variable {text : String} {origin : Position} {g : Grid} {d : Dimensions} {height width : Nat}

theorem countsExactly_iff : CountsExactly origin height width ↔
    origin.row + height < Word.size ∧ origin.col + width < Word.size := by
  constructor
  · intro h
    exact ⟨(Word.add?_eq_some_iff.1 h.stopRow).1, (Word.add?_eq_some_iff.1 h.stopCol).1⟩
  · rintro ⟨hrows, hcols⟩
    refine ⟨fun i hi => ?_, fun j hj => ?_, Word.add?_eq hrows, Word.add?_eq hcols⟩
    · exact Word.add?_eq (by omega)
    · exact Word.add?_eq (by omega)

theorem pastesExactly_iff (horigin : d.contains origin = true) :
    PastesExactly text origin g d ↔ EndsInWords origin (fieldRows text) := by
  constructor
  · rintro ⟨g', hpaste, -⟩
    by_contra hends
    rw [paste?_eq_none_iff.2 ⟨horigin, hends⟩] at hpaste
    cases hpaste
  · intro hends
    exact ⟨_, paste?_of_endsInWords g horigin hends, fun i j t ht hin => get?_pasteRows_of_field hin ht,
      fun q => get?_pasteRows_of_none⟩

/-- From every cell of a sheet and for every text, three things are the same: every sum is a word, the
paste is exact, and the block ends in the words.  Otherwise the paste has no result at all, so that a
field beyond the last row or column never lands elsewhere. -/
theorem pastes_exactly_iff_fits (text : String) (horigin : d.contains origin = true) (g : Grid) :
    let rows := fieldRows text
    let fits := origin.row + rows.length < Word.size ∧ origin.col + widest rows < Word.size
    (CountsExactly origin rows.length (widest rows) ↔ fits) ∧
    (PastesExactly text origin g d ↔ fits) ∧
    (paste? text origin g d = none ↔ ¬ fits) := by
  refine ⟨countsExactly_iff, pastesExactly_iff horigin, ?_⟩
  rw [paste?_eq_none_iff, and_iff_right horigin]
  rfl

end Paste

/-! ### The last rows of the largest sheet -/

/-- One column, with as many rows as can be counted. -/
def longestColumn : Dimensions := ⟨18446744073709551615, 1, by decide, Nat.one_pos⟩

/-- From the last row but one a block of two lines is pasted, and the row behind it is the largest
word. -/
theorem pastes_exactly_iff_fits_lastRows :
    longestColumn.contains ⟨18446744073709551613, 0⟩ = true ∧
      CountsExactly ⟨18446744073709551613, 0⟩ 2 1 ∧
      PastesExactly "x\ny" ⟨18446744073709551613, 0⟩ Grid.empty longestColumn := by
  have horigin : longestColumn.contains ⟨18446744073709551613, 0⟩ = true := by decide
  have hsize : (fieldRows "x\ny").length = 2 ∧ widest (fieldRows "x\ny") = 1 := by decide
  obtain ⟨hcounts, hpastes, -⟩ := pastes_exactly_iff_fits "x\ny" horigin Grid.empty
  rw [hsize.1, hsize.2] at hcounts hpastes
  exact ⟨horigin, hcounts.2 (by decide), hpastes.2 (by decide)⟩

/-- From the last row all but the first of four lines belong behind the sheet and are to be dropped.
But the rows of the last two are no words, and the paste has no result. -/
theorem not_pastesExactly_fourLines :
    longestColumn.AreWords ∧ longestColumn.contains ⟨18446744073709551614, 0⟩ = true ∧
      paste? "\n\nx\ny" ⟨18446744073709551614, 0⟩ Grid.empty longestColumn = none ∧
      ¬ CountsExactly ⟨18446744073709551614, 0⟩ 4 1 ∧
      ¬ PastesExactly "\n\nx\ny" ⟨18446744073709551614, 0⟩ Grid.empty longestColumn := by
  have horigin : longestColumn.contains ⟨18446744073709551614, 0⟩ = true := by decide
  have hends : ¬ EndsInWords ⟨18446744073709551614, 0⟩ (fieldRows "\n\nx\ny") := fun h =>
    absurd h.1 (by decide)
  refine ⟨⟨by decide, by decide⟩, horigin, paste?_eq_none_iff.2 ⟨horigin, hends⟩, fun h => ?_,
    fun h => hends ((pastesExactly_iff horigin).1 h)⟩
  exact absurd (countsExactly_iff.1 h).1 (by decide)

end Interchange

end Spreadsheet
