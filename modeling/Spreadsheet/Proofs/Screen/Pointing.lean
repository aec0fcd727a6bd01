import Mathlib.Tactic.SplitIfs
import Spreadsheet.Screen.Render

/-!
# Spreadsheet.Proofs.Screen.Pointing — pointing at cells and drawing them

The grid is drawn cell by cell, each in its `cellArea`, and `cellUnder` finds the cell back from any
character of that area.  The other way round it fails: the columns shown need not fill the box, and
behind the last of them `cellUnder` goes on counting columns that are not drawn.
-/

namespace Spreadsheet

namespace Screen

variable {γ : Type}

section Defs

variable (w : Workspace γ) (width height : Nat)

/-- Whether a cell is drawn on a screen of this size. -/
def IsDrawn (p : Position) : Prop :=
  p.row ∈ shownRows w width height ∧ p.col ∈ shownCols w width height

instance (p : Position) : Decidable (IsDrawn w width height p) :=
  inferInstanceAs (Decidable (_ ∧ _))

/-- Where a cell stands that is drawn. -/
def cellArea (p : Position) : Area :=
  columnArea (gridArea width height) w.columnWidth (p.col - w.leftCol) (p.row - w.topRow + 1)

/-- Draws the value of a cell in its place. -/
def drawValue (p : Position) : Canvas → Canvas :=
  let v := Formula.valueAt w.grid w.dims p
  drawCell (cellArea w width height p) (joinedLines v.display) (valueAlignment v) (cellStyle w p v)

end Defs

variable {w : Workspace γ} {width height x y : Nat} {p : Position}

/-! ### Where cells stand -/

/-- The first screen column with cells is the same for every screen. -/
theorem firstCellX_gridArea (width height : Nat) : firstCellX (gridArea width height) = 7 := rfl

theorem firstCellY_eq (width height : Nat) :
    firstCellY (gridArea width height) = (gridArea width height).y + 2 :=
  Word.shortAdd_eq (by simp only [gridArea, Word.shortSize]; omega)

theorem bottomEdge_eq (hheight : height < Word.shortSize) :
    bottomEdge (gridArea width height) =
      (gridArea width height).y + ((gridArea width height).height - 1) :=
  Word.shortAdd_eq (by simp only [gridArea]; omega)

theorem rightEdge_eq (hwidth : width < Word.shortSize) :
    rightEdge (gridArea width height) =
      (gridArea width height).x + ((gridArea width height).width - 1) :=
  Word.shortAdd_eq (by simp only [gridArea]; omega)

theorem isAmongCells_iff (hwidth : width < Word.shortSize) (hheight : height < Word.shortSize) :
    isAmongCells (gridArea width height) x y = true ↔
      (3 ≤ y ∧ y + 4 < height) ∧ 7 ≤ x ∧ x + 1 < width := by
  simp only [isAmongCells, Bool.and_eq_true, decide_eq_true_eq]
  rw [rightEdge_eq hwidth, bottomEdge_eq hheight, firstCellY_eq, firstCellX_gridArea]
  simp only [gridArea]
  omega

theorem firstCellY_gridArea (h : 1 ≤ height) : firstCellY (gridArea width height) = 3 := by
  have hmin : min height 1 = 1 := by omega
  show Word.shortAdd (min height 1) 2 = 3
  rw [hmin]
  rfl

theorem cellUnder_eq_some_iff :
    cellUnder w width height x y = some p ↔ hit? w width height x y = some (some p) := by
  rw [cellUnder, Option.join_eq_some_iff]

theorem contains_of_cellUnder (h : cellUnder w width height x y = some p) :
    w.dims.contains p = true := by
  rw [cellUnder_eq_some_iff] at h
  unfold hit? at h
  simp only at h
  split_ifs at h
  · simp only [Option.bind_eq_bind, Option.bind_eq_some_iff, Option.pure_def, Option.some.injEq,
      Option.ite_none_right_eq_some] at h
    obtain ⟨row, -, col, -, hcontains, rfl⟩ := h
    exact hcontains
  · cases h

/-- A point hits the cell as many rows and columns away from the first one shown as there are lines
and column widths between them, if the sheet has it. -/
theorem hit?_eq_some_iff (hwidth : width < Word.shortSize) (hheight : height < Word.shortSize) :
    hit? w width height x y = some (some p) ↔
      (((3 ≤ y ∧ y + 4 < height) ∧ 7 ≤ x ∧ x + 1 < width) ∧ isPlaceable w.columnWidth = true) ∧
        (w.topRow + (y - 3) < Word.size ∧ w.leftCol + (x - 7) / pitch w.columnWidth < Word.size) ∧
        w.dims.contains p = true ∧
        p = ⟨w.topRow + (y - 3), w.leftCol + (x - 7) / pitch w.columnWidth⟩ := by
  rw [← isAmongCells_iff hwidth hheight]
  unfold hit?
  -- among the cells there is a result exactly if both sums are words
  by_cases hamong : isAmongCells (gridArea width height) x y = true ∧ isPlaceable w.columnWidth = true
  · have hpoint := (isAmongCells_iff hwidth hheight).1 hamong.1
    simp only [if_pos hamong.1, if_pos hamong.2, firstCellY_gridArea (show 1 ≤ height by omega),
      firstCellX_gridArea, Option.bind_eq_bind, Option.bind_eq_some_iff, Word.add?_eq_some_iff,
      Option.pure_def, Option.some.injEq, Option.ite_none_right_eq_some]
    constructor
    · rintro ⟨row, ⟨hrow, rfl⟩, col, ⟨hcol, rfl⟩, hcontains, rfl⟩
      exact ⟨hamong, ⟨hrow, hcol⟩, hcontains, rfl⟩
    · rintro ⟨-, ⟨hrow, hcol⟩, hcontains, rfl⟩
      exact ⟨_, ⟨hrow, rfl⟩, _, ⟨hcol, rfl⟩, hcontains, rfl⟩
  · refine iff_of_false (fun h => ?_) fun h => hamong h.1
    simp only at h
    split_ifs at h with hcells hplaceable
    · exact hamong ⟨hcells, hplaceable⟩
    · cases h

/-- What lies before the end of the window lies in the window's room and on the sheet, and the end is a
word. -/
theorem lt_windowEnd_iff {first size count i : Nat} :
    i < (windowEnd? first size count).getD 0 ↔
      first + size < Word.size ∧ i < first + size ∧ i < count := by
  by_cases hword : first + size < Word.size
  · rw [windowEnd?, Word.add?_eq hword, Option.map_some, Option.getD_some, and_iff_right hword,
      Nat.lt_min]
  · rw [windowEnd?, Word.add?_eq_none_iff.2 (Nat.le_of_not_lt hword)]
    exact iff_of_false (Nat.not_lt_zero i) fun h => hword h.1

theorem isDrawn_iff :
    IsDrawn w width height p ↔
      (w.topRow ≤ p.row ∧ p.row < rowEnd w width height) ∧
        w.leftCol ≤ p.col ∧ p.col < colEnd w width height := by
  simp only [IsDrawn, shownRows, shownCols, List.mem_range'_1]
  omega

theorem IsDrawn.contains (h : IsDrawn w width height p) : w.dims.contains p = true := by
  obtain ⟨⟨-, hrow⟩, -, hcol⟩ := isDrawn_iff.1 h
  exact Dimensions.contains_iff.2 ⟨(lt_windowEnd_iff.1 hrow).2.2, (lt_windowEnd_iff.1 hcol).2.2⟩

/-! ### The grid is drawn cell by cell -/

theorem zipIdx_range' (first n : Nat) :
    (List.range' first n).zipIdx = (List.range' first n).map fun i => (i, i - first) := by
  refine List.ext_getElem (by simp) fun i h _ => ?_
  simp

/-- Every line of the grid is drawn with its number and each of its cells in its place. -/
theorem drawRow_eq {row : Nat} (c : Canvas) :
    drawRow w (gridArea width height) (shownCols w width height) (row - w.topRow + 1) row c =
      (shownCols w width height).foldl (fun c col => drawValue w width height ⟨row, col⟩ c)
        (drawCell (rowNumberArea (gridArea width height) (row - w.topRow + 1))
          (symbolsOf (Nat.toDigits 10 (Word.add row 1))) .left
          (headingStyle (row = w.selection.active.row)) c) := by
  unfold drawRow
  simp only
  rw [shownCols, zipIdx_range', List.foldl_map]
  rfl

/-- The grid is drawn line by line, the line of a row as far down as the row is from the first one
shown. -/
theorem drawGrid_eq (c : Canvas) :
    drawGrid w width height c =
      (shownRows w width height).foldl
        (fun c row => drawRow w (gridArea width height) (shownCols w width height)
          (row - w.topRow + 1) row c)
        (drawColumnLetters w (gridArea width height) (shownCols w width height)
          (c.box (gridArea width height) (joinedLines
            (w.sheetId ++ " (" ++ toString w.dims.rows ++ "x" ++ toString w.dims.cols ++ ")")))) := by
  unfold drawGrid
  simp only
  rw [shownRows, zipIdx_range', List.foldl_map]

/-! ### Pointing at a cell that is drawn -/

/-- A line of the sheet counted from the first one shown is itself shown, unless the end of the window
is no word. -/
theorem shown_iff {first size count i : Nat} (hin : first + i < count) :
    first ≤ first + i ∧ first + i < (windowEnd? first size count).getD 0 ↔
      first + size < Word.size ∧ i < size := by
  rw [lt_windowEnd_iff]
  omega

/-- The cell that a point hits is drawn exactly if the ends of the window are words and the point
does not lie behind the last column that fits on the screen. -/
theorem isDrawn_iff_of_cellUnder (hwidth : width < Word.shortSize) (hheight : height < Word.shortSize)
    (hunder : cellUnder w width height x y = some p) :
    IsDrawn w width height p ↔
      w.topRow + visibleRows width height < Word.size ∧
        w.leftCol + visibleCols width height w.columnWidth < Word.size ∧
        x < firstCellX (gridArea width height) +
          visibleCols width height w.columnWidth * pitch w.columnWidth := by
  obtain ⟨⟨⟨hy, hx⟩, hpitch⟩, -, hin, rfl⟩ :=
    (hit?_eq_some_iff hwidth hheight).1 (cellUnder_eq_some_iff.1 hunder)
  obtain ⟨hrow, hcol⟩ := Dimensions.contains_iff.1 hin
  have hpos : 0 < pitch w.columnWidth := Nat.pos_of_ne_zero (by simpa [isPlaceable] using hpitch)
  -- a line among the cells is the line of a row that is shown; columns may be cut off
  have hline : y - 3 < visibleRows width height := by
    simp only [visibleRows, gridArea]
    omega
  have hcolumn : (x - 7) / pitch w.columnWidth < visibleCols width height w.columnWidth ↔
      x < 7 + visibleCols width height w.columnWidth * pitch w.columnWidth := by
    rw [Nat.div_lt_iff_lt_mul hpos]
    omega
  rw [isDrawn_iff, rowEnd, colEnd, shown_iff hrow, shown_iff hcol, firstCellX_gridArea, hcolumn,
    and_iff_left hline]

/-! ### A cell that is drawn is hit -/

section Room

variable (hwidth : width < Word.shortSize) (hroom : w.columnWidth + 1 ≤ width - 7)

include hwidth hroom

theorem pitch_eq : pitch w.columnWidth = w.columnWidth + 1 :=
  Word.shortAdd_eq (by simp only [columnGap]; omega)

/-- On a screen with room for a column the columns shown fit between row numbers and border. -/
theorem visibleCols_mul_le :
    visibleCols width height w.columnWidth * (w.columnWidth + 1) ≤ width - 7 := by
  have hone : 1 ≤ (width - 7) / (w.columnWidth + 1) := (Nat.one_le_div_iff (by omega)).2 hroom
  have heq : visibleCols width height w.columnWidth = (width - 7) / (w.columnWidth + 1) := by
    show max ((width - 7) / pitch w.columnWidth) 1 = _
    rw [pitch_eq hwidth hroom]
    omega
  rw [heq]
  exact Nat.div_mul_le_self _ _

variable (hp : IsDrawn w width height p)

include hp

/-- The place of a cell that is drawn ends before the border. -/
theorem columnOffset_le :
    (p.col - w.leftCol) * (w.columnWidth + 1) + (w.columnWidth + 1) ≤ width - 7 := by
  obtain ⟨-, hfirst, hlast⟩ := isDrawn_iff.1 hp
  have hlt : p.col - w.leftCol + 1 ≤ visibleCols width height w.columnWidth := by
    have := (lt_windowEnd_iff.1 hlast).2.1
    omega
  have hmul := Nat.mul_le_mul_right (w.columnWidth + 1) hlt
  rw [Nat.succ_mul] at hmul
  exact Nat.le_trans hmul (visibleCols_mul_le hwidth hroom)

/-- A cell that is drawn has the whole width of a column. -/
theorem cellArea_eq (hheight : 1 ≤ height) :
    cellArea w width height p =
      ⟨7 + (p.col - w.leftCol) * (w.columnWidth + 1), 3 + (p.row - w.topRow), w.columnWidth, 1⟩ := by
  have hoffset := columnOffset_le hwidth hroom hp
  have hmin : min height 1 = 1 := by omega
  simp only [cellArea, columnArea, Area.inner, gridArea, rowNumberWidth, columnGap, hmin,
    Area.mk.injEq, and_true]
  omega

/-- Every character of a cell that is drawn hits the cell. -/
theorem cellUnder_of_isDrawn (hheight : 8 ≤ height) (hshort : height < Word.shortSize)
    (hfirst : (cellArea w width height p).x ≤ x)
    (hlast : x < (cellArea w width height p).x + (cellArea w width height p).width) :
    cellUnder w width height x (cellArea w width height p).y = some p := by
  have hoffset := columnOffset_le hwidth hroom hp
  obtain ⟨⟨hrow, hrow'⟩, hcol, hcol'⟩ := isDrawn_iff.1 hp
  obtain ⟨hrows, hrow', -⟩ := lt_windowEnd_iff.1 hrow'
  obtain ⟨hcols, hcol', -⟩ := lt_windowEnd_iff.1 hcol'
  rw [cellArea_eq hwidth hroom hp (by omega)] at hfirst hlast ⊢
  simp only at hfirst hlast ⊢
  have hpitch := pitch_eq hwidth hroom
  -- all characters of a column have the same quotient by the pitch
  have hdiv : (x - 7) / pitch w.columnWidth = p.col - w.leftCol := by
    rw [hpitch]
    refine Nat.div_eq_of_lt_le (by omega) ?_
    rw [Nat.succ_mul]
    omega
  have hline : p.row - w.topRow < height - 7 := by
    simp only [visibleRows, gridArea] at hrow'
    omega
  have hbackRow : w.topRow + (3 + (p.row - w.topRow) - 3) = p.row := by omega
  have hbackCol : w.leftCol + (p.col - w.leftCol) = p.col := by omega
  rw [cellUnder_eq_some_iff, hit?_eq_some_iff hwidth hshort, hdiv, hbackRow, hbackCol]
  refine ⟨⟨⟨⟨by omega, by omega⟩, by omega, by omega⟩, ?_⟩,
    ⟨Nat.lt_trans hrow' hrows, Nat.lt_trans hcol' hcols⟩, hp.contains, rfl⟩
  simp [isPlaceable, hpitch]

end Room

/-! ### The space behind the last column -/

/-- The options of a sheet of the standard size. -/
def standardSheet : Options := ⟨"sheet", Dimensions.standard, 10, 1000, 100, false⟩

/-- The last character before the leftover space of a screen of 80 columns hits a cell that is
drawn. -/
theorem isDrawn_iff_of_cellUnder_lastColumn :
    let w := Workspace.open standardSheet MemoryArchive.empty .empty
    cellUnder w 80 24 72 3 = some ⟨0, 5⟩ ∧ IsDrawn w 80 24 ⟨0, 5⟩ := by
  intro w
  have hunder : cellUnder w 80 24 72 3 = some ⟨0, 5⟩ := by decide +kernel
  have hends : w.topRow + visibleRows 80 24 < Word.size ∧
      w.leftCol + visibleCols 80 24 w.columnWidth < Word.size ∧
      72 < firstCellX (gridArea 80 24) + visibleCols 80 24 w.columnWidth * pitch w.columnWidth := by
    decide +kernel
  exact ⟨hunder, (isDrawn_iff_of_cellUnder (by decide) (by decide) hunder).2 hends⟩

/-- The character behind it hits a cell of the next column, which is not drawn. -/
theorem not_isDrawn_behind_lastColumn :
    let w := Workspace.open standardSheet MemoryArchive.empty .empty
    visibleCols 80 24 w.columnWidth = 6 ∧ cellUnder w 80 24 73 3 = some ⟨0, 6⟩ ∧
      ¬ IsDrawn w 80 24 ⟨0, 6⟩ := by
  decide +kernel

end Screen

end Spreadsheet
