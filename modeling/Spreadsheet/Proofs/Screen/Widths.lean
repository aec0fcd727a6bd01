import Spreadsheet.Proofs.Screen.Pointing
import Spreadsheet.Proofs.Settings.Merging

/-!
# Spreadsheet.Proofs.Screen.Widths — the column widths that a screen can be computed with

Screen coordinates and column widths are 16-bit words.  The sums of coordinates are exact on every
screen, and so are the differences, as only points among the cells are counted from the first cell.
The pitch of the columns is another matter: settings may have any word as the column width, and the
largest one leaves no room for the gap, so that the pitch wraps round to zero and nothing can be
divided by it.
-/

namespace Spreadsheet

/-! ### Widths in settings -/

namespace Settings

/-- Settings that are read, from whatever file, have a 16-bit word as their column width. -/
theorem columnWidth_lt_of_read {env : Environment} {fs : FileSystem} {path : String} {s : Settings}
    (h : read env fs path = .ok s) : s.columnWidth < Word.shortSize :=
  fits_of_read h (.columnWidth s.columnWidth) (by simp [entries])

end Settings

/-! ### Sums on the screen -/

namespace Screen

variable {columnWidth width height x y : Nat}

/-- What is computed in 16-bit words to fit columns of this width on a screen, and to find the cell
at a point of it, comes out as in natural numbers.  The distances between edges, which a small
screen may not have room for, stop at zero by design. -/
structure IsExact (columnWidth width height x y : Nat) : Prop where
  columns : pitch columnWidth = columnWidth + columnGap
  divisor : pitch columnWidth ≠ 0
  top : firstCellY (gridArea width height) = (gridArea width height).y + 2
  left : firstCellX (gridArea width height) =
    (gridArea width height).x + 1 + rowNumberWidth + columnGap
  bottom : bottomEdge (gridArea width height) =
    (gridArea width height).y + ((gridArea width height).height - 1)
  right : rightEdge (gridArea width height) =
    (gridArea width height).x + ((gridArea width height).width - 1)
  down : isAmongCells (gridArea width height) x y = true → firstCellY (gridArea width height) ≤ y
  across : isAmongCells (gridArea width height) x y = true → firstCellX (gridArea width height) ≤ x

/-- It is the sum of the column width and the gap that decides. -/
theorem isExact_iff (hwidth : width < Word.shortSize) (hheight : height < Word.shortSize) :
    IsExact columnWidth width height x y ↔ columnWidth + columnGap < Word.shortSize := by
  constructor
  · intro h
    have hpitch : (columnWidth + columnGap) % Word.shortSize = columnWidth + columnGap := h.columns
    rw [← hpitch]
    exact Nat.mod_lt _ (by decide)
  · intro h
    have hpitch : pitch columnWidth = columnWidth + columnGap := Word.shortAdd_eq h
    -- a point among the cells lies behind both edges, so nothing is taken from too little
    have hedges : isAmongCells (gridArea width height) x y = true →
        firstCellY (gridArea width height) ≤ y ∧ firstCellX (gridArea width height) ≤ x := by
      simp only [isAmongCells, Bool.and_eq_true, decide_eq_true_eq]
      exact fun hamong => ⟨hamong.1.1.1, hamong.1.2⟩
    exact
      { columns := hpitch
        divisor := hpitch ▸ Nat.succ_ne_zero columnWidth
        top := firstCellY_eq width height
        left := rfl
        bottom := bottomEdge_eq hheight
        right := rightEdge_eq hwidth
        down := fun hamong => (hedges hamong).1
        across := fun hamong => (hedges hamong).2 }

/-- With the column width of a settings file that is read everything is exact on every screen and at
every point, unless it is the largest width there is. -/
theorem isExact_iff_of_read {env : Environment} {fs : FileSystem} {path : String} {s : Settings}
    (hread : Settings.read env fs path = .ok s) (sheetId : String) (hwidth : width < Word.shortSize)
    (hheight : height < Word.shortSize) (x y : Nat) :
    IsExact (Options.ofSettings sheetId s).columnWidth width height x y ↔ s.columnWidth ≠ 65535 := by
  have hword := Settings.columnWidth_lt_of_read hread
  have hoptions : (Options.ofSettings sheetId s).columnWidth = max s.columnWidth 3 := rfl
  rw [isExact_iff hwidth hheight, hoptions]
  simp only [columnGap, Word.shortSize] at *
  omega

/-- A working directory with a settings file that asks for this column width. -/
def widthFile (digits : String) : FileSystem :=
  ⟨[(["settings.json"], .file (.text ("\x7b\"column_width\": " ++ digits ++ "\x7d")))]⟩

/-- An environment that names no directories. -/
def bareEnvironment : Environment := ⟨none, none, none, none⟩

/-- The second largest width is used on the largest screen. -/
theorem isExact_secondLargestWidth :
    Settings.read bareEnvironment (widthFile "65534") "settings.json" =
        .ok { Settings.standard bareEnvironment with columnWidth := 65534 } ∧
      65535 < Word.shortSize ∧
      IsExact (Options.ofSettings "sheet"
        { Settings.standard bareEnvironment with columnWidth := 65534 }).columnWidth
        65535 65535 65533 65530 := by
  have hread : Settings.read bareEnvironment (widthFile "65534") "settings.json" =
      .ok { Settings.standard bareEnvironment with columnWidth := 65534 } := by decide +kernel
  exact ⟨hread, by decide, (isExact_iff_of_read hread "sheet" (by decide) (by decide) _ _).2
    (by decide)⟩

/-- The largest width is read from a settings file as well, and leaves the columns no pitch. -/
theorem not_isExact_largestWidth :
    Settings.read bareEnvironment (widthFile "65535") "settings.json" =
        .ok { Settings.standard bareEnvironment with columnWidth := 65535 } ∧
      pitch (Options.ofSettings "sheet"
        { Settings.standard bareEnvironment with columnWidth := 65535 }).columnWidth = 0 ∧
      ¬ IsExact (Options.ofSettings "sheet"
        { Settings.standard bareEnvironment with columnWidth := 65535 }).columnWidth 80 24 7 3 := by
  refine ⟨by decide +kernel, by decide, fun h => ?_⟩
  exact h.divisor (by decide)

end Screen

end Spreadsheet
