import Spreadsheet.Proofs.Screen.Drawing
import Spreadsheet.Proofs.Workspace.Window

/-!
# Spreadsheet.Proofs.Workspace.Showing — the active cell is shown and can be pointed at

When the window is fitted to a screen it is scrolled to the active cell, and then the pointer finds
every cell that is drawn, at the points where it is drawn.  The one thing that could go wrong is a
window whose end is no word.
-/

namespace Spreadsheet

namespace Workspace

variable {γ : Type}

/-- A window is scrolled so that it shows the active line, and its end is a word if the end before was
one. -/
theorem scrolled?_shows {first active size count : Nat} (hactive : active < count)
    (hcount : count < Word.size) (hsize : 1 ≤ size) (hsum : first + size < Word.size) :
    ∃ next, scrolled? first active size = some next ∧ next ≤ active ∧ active < next + size ∧
      next + size < Word.size := by
  refine ⟨_, scrolled?_eq hsize hsum (by omega), ?_⟩
  omega

section Fitted

variable {w : Workspace γ} {width height : Nat}

/-- A window fitted to a screen shows the active cell and can be drawn, and fitting it does not stop
the program. -/
theorem IsPlaced.isDrawn_resize (h : IsPlaced w)
    (hplaceable : Screen.isPlaceable w.columnWidth = true)
    (htop : w.topRow + Screen.visibleRows width height < Word.size)
    (hleft : w.leftCol + Screen.visibleCols width height w.columnWidth < Word.size) :
    let v := w.resize (Screen.visibleRows width height)
      (Screen.visibleCols width height w.columnWidth)
    Screen.IsDrawn v width height v.selection.active ∧ v.stopped = w.stopped ∧
      Screen.isDrawable v width height = true := by
  intro v
  obtain ⟨hrow, hcol⟩ := Dimensions.contains_iff.1 h.selection.active
  have hrows : 1 ≤ Screen.visibleRows width height := Nat.le_max_right _ _
  have hcols : 1 ≤ Screen.visibleCols width height w.columnWidth := Nat.le_max_right _ _
  obtain ⟨top, htopRow, hfirst, hlast, hend⟩ := scrolled?_shows hrow h.words.1 hrows htop
  obtain ⟨left, hleftCol, hfirst', hlast', hend'⟩ := scrolled?_shows hcol h.words.2 hcols hleft
  -- the window begins with the lines just found, in both directions
  have hv : v = { w with
      viewRows := Screen.visibleRows width height
      viewCols := Screen.visibleCols width height w.columnWidth
      topRow := top
      leftCol := left } := by
    show Workspace.resize w _ _ = _
    simp only [resize, reveal, scrolled, Nat.max_eq_left hrows, Nat.max_eq_left hcols, htopRow,
      hleftCol, Option.getD_some, Option.isNone_some, Bool.or_false]
  rw [hv]
  refine ⟨Screen.isDrawn_iff.2 ⟨⟨hfirst, ?_⟩, hfirst', ?_⟩, rfl, ?_⟩
  · exact Screen.lt_windowEnd_iff.2 ⟨hend, hlast, hrow⟩
  · exact Screen.lt_windowEnd_iff.2 ⟨hend', hlast', hcol⟩
  · simp only [Screen.isDrawable, Screen.windowEnd?, Word.add?_eq hend, Word.add?_eq hend',
      hplaceable, Option.map_some, Option.isSome_some, Bool.and_self]

end Fitted

/-- On a screen with eight lines and room for a column, whatever has happened before: once the window
is fitted to the screen the active cell is drawn, every cell that is drawn stands where the columns
and lines before it end, and each of its characters hits that cell and shows what drawing the cell
alone would leave there.  Fitting the window does not stop the program, and it can be drawn. -/
theorem live_pointing [Archive γ] {o : Options} {archive : γ} {files : FileSystem}
    (hstart : WordsStart o archive files) (hs : List (Happening γ)) (width height : Nat) :
    let w := (Workspace.open o archive files).live hs
    let rows := Screen.visibleRows width height
    let cols := Screen.visibleCols width height w.columnWidth
    let v := w.resize rows cols
    width < Word.shortSize → 8 ≤ height → height < Word.shortSize → w.columnWidth + 1 ≤ width - 7 →
      w.topRow + rows < Word.size → w.leftCol + cols < Word.size →
      (v.stopped = w.stopped ∧ Screen.isDrawable v width height = true) ∧
        Screen.IsDrawn v width height v.selection.active ∧
        ∀ p, Screen.IsDrawn v width height p →
          let area := Screen.cellArea v width height p
          area = ⟨7 + (p.col - v.leftCol) * (v.columnWidth + 1), 3 + (p.row - v.topRow),
            v.columnWidth, 1⟩ ∧
          ∀ x, area.x ≤ x → x < area.x + area.width →
            Screen.cellUnder v width height x area.y = some p ∧
              ∀ c, (Screen.drawGrid v width height c).glyph? x area.y
                = (Screen.drawValue v width height p c).glyph? x area.y := by
  intro w rows cols v hwidth hheight hshort hroom htop hleft
  -- there is room for a column, so columns have a pitch
  have hplaceable : Screen.isPlaceable w.columnWidth = true := by
    simp [Screen.isPlaceable, Screen.pitch_eq hwidth hroom]
  obtain ⟨hactive, hstopped, hdrawable⟩ :=
    (hstart.isPlaced.live hs).isDrawn_resize hplaceable htop hleft
  refine ⟨⟨hstopped, hdrawable⟩, hactive, fun p hp => ⟨?_, fun x hfirst hlast => ⟨?_, fun c => ?_⟩⟩⟩
  · exact Screen.cellArea_eq hwidth hroom hp (by omega)
  · exact Screen.cellUnder_of_isDrawn hwidth hroom hp hheight hshort hfirst hlast
  · have hin : (Screen.cellArea v width height p).Contains x (Screen.cellArea v width height p).y :=
      ⟨hfirst, hlast, Nat.le_refl _, Nat.lt_succ_self _⟩
    exact Screen.glyph?_drawGrid (w := v) hwidth hroom hheight hshort hp hin c

/-- On a small sheet whose second row is active, on a screen of 80 columns and 24 lines, the last
character of the last cell hits it and shows its value. -/
theorem live_pointing_smallSheet :
    let w := (Workspace.open smallSheet MemoryArchive.empty .empty).live [.key .down Modifiers.none]
    let v := w.resize (Screen.visibleRows 80 24) (Screen.visibleCols 80 24 w.columnWidth)
    WordsStart smallSheet MemoryArchive.empty .empty ∧ w.columnWidth + 1 ≤ 80 - 7 ∧
      w.topRow + Screen.visibleRows 80 24 < Word.size ∧
      w.leftCol + Screen.visibleCols 80 24 w.columnWidth < Word.size ∧
      v.selection.active = ⟨1, 0⟩ ∧ Screen.IsDrawn v 80 24 v.selection.active ∧
      Screen.cellArea v 80 24 ⟨1, 1⟩ = ⟨18, 4, 10, 1⟩ ∧
      Screen.cellUnder v 80 24 27 4 = some ⟨1, 1⟩ ∧
      (Screen.drawGrid v 80 24 (.blank 80 24)).glyph? 27 4
        = (Screen.drawValue v 80 24 ⟨1, 1⟩ (.blank 80 24)).glyph? 27 4 := by
  intro w v
  have hstart : WordsStart smallSheet MemoryArchive.empty .empty :=
    ⟨⟨by decide, by decide⟩, fun d hd => by cases hd⟩
  have hroom : w.columnWidth + 1 ≤ 80 - 7 := by decide +kernel
  have htop : w.topRow + Screen.visibleRows 80 24 < Word.size := by decide +kernel
  have hleft : w.leftCol + Screen.visibleCols 80 24 w.columnWidth < Word.size := by decide +kernel
  have hactive : v.selection.active = ⟨1, 0⟩ := by decide +kernel
  have hlast : Screen.IsDrawn v 80 24 ⟨1, 1⟩ := by decide +kernel
  have harea : Screen.cellArea v 80 24 ⟨1, 1⟩ = ⟨18, 4, 10, 1⟩ := by decide +kernel
  obtain ⟨-, hdrawn, hhits⟩ := live_pointing hstart [.key .down Modifiers.none] 80 24 (by decide)
    (by decide) (by decide) hroom htop hleft
  have hhit := (hhits ⟨1, 1⟩ hlast).2 27
  rw [harea] at hhit
  obtain ⟨hunder, hshows⟩ := hhit (by decide) (by decide)
  exact ⟨hstart, hroom, htop, hleft, hactive, hdrawn, harea, hunder, hshows (.blank 80 24)⟩

end Workspace

end Spreadsheet
