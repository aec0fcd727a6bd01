import Mathlib.Data.Nat.Dist
import Spreadsheet.Proofs.Workspace.Showing

/-!
# Spreadsheet.Proofs.Workspace.Scrolling — the window is scrolled no further than it takes

Stepping, committing an edit and resizing end by scrolling to the active cell.  As long as the sums of
row and column numbers are words, a scrolled line is the first line clamped between the least and the
largest one whose window shows the active line; so it is the nearest of them, and scrolling again
changes nothing.
-/

namespace Spreadsheet

namespace Workspace

section Defs

/-- A window of `size` lines from the line `first` on shows the line `active`. -/
def Shows (first size active : Nat) : Prop := first ≤ active ∧ active < first + size

/-- A window of `size` lines is scrolled from `first` to the nearest line `next` from which it shows
the line `active`. -/
structure ScrollsTo (first size active next : Nat) : Prop where
  shows : Shows next size active
  nearest : ∀ other, Shows other size active → other ≠ next → first.dist next < first.dist other

/-- What is done that scrolls to the active cell. -/
inductive Scrolling where
  | reveal
  | step (d : Direction) (extend : Bool)
  | commit
  | resize (rows cols : Nat)
deriving DecidableEq, Repr

variable {γ : Type}

/-- Whether it can be done: only an edit in progress can be committed. -/
def Scrolling.isPossible (w : Workspace γ) : Scrolling → Bool
  | .commit => w.selection.isEditing
  | _ => true

/-- Does something that scrolls to the active cell. -/
def scroll (w : Workspace γ) : Scrolling → Workspace γ
  | .reveal => w.reveal
  | .step d extend => w.step d extend
  | .commit => w.commitAndStep
  | .resize rows cols => w.resize rows cols

/-- The sums of row and of column numbers that a window scrolled from `w` to `w'` is computed with
are words. -/
structure AreWords (w w' : Workspace γ) : Prop where
  rows : w.topRow + w'.viewRows < Word.size
  cols : w.leftCol + w'.viewCols < Word.size
  row : w'.selection.active.row + 1 < Word.size
  col : w'.selection.active.col + 1 < Word.size

end Defs

/-! ### One direction -/

section Lines

variable {first size active next : Nat}

theorem scrollsTo_scrolled (hsize : 1 ≤ size) (hsum : first + size < Word.size)
    (hactive : active + 1 < Word.size) :
    ScrollsTo first size active (scrolled first active size) := by
  rw [scrolled, scrolled?_eq hsize hsum hactive, Option.getD_some]
  refine ⟨⟨by omega, by omega⟩, fun other hother hne => ?_⟩
  obtain ⟨hfirst, hlast⟩ := hother
  unfold Nat.dist
  omega

/-- A line that is shown causes no scrolling. -/
theorem ScrollsTo.stays (h : ScrollsTo first size active next) (hshown : Shows first size active) :
    next = first := by
  by_contra hne
  have hlt := h.nearest first hshown (Ne.symm hne)
  rw [Nat.dist_self] at hlt
  exact Nat.not_lt_zero _ hlt

theorem scrolled?_of_shows (hsum : first + size < Word.size) (hshown : Shows first size active) :
    scrolled? first active size = some first :=
  scrolled?_eq_some_iff.2 (.inr ⟨hshown.1, hsum, .inr ⟨hshown.2, rfl⟩⟩)

end Lines

/-! ### Both directions -/

variable {γ : Type} {w : Workspace γ} {a : Scrolling}

theorem reveal_of_shows (hrows : w.topRow + w.viewRows < Word.size)
    (hcols : w.leftCol + w.viewCols < Word.size)
    (hrow : Shows w.topRow w.viewRows w.selection.active.row)
    (hcol : Shows w.leftCol w.viewCols w.selection.active.col) : w.reveal = w := by
  unfold reveal
  simp only [scrolled, scrolled?_of_shows hrows hrow, scrolled?_of_shows hcols hcol, Option.getD_some,
    Option.isNone_some, Bool.or_false]

/-- The window is revealed at the nearest lines from which it shows the active cell, and revealing it
again changes nothing. -/
theorem reveal_scrollsTo (hrows : 1 ≤ w.viewRows) (hcols : 1 ≤ w.viewCols)
    (hwords : AreWords w w.reveal) :
    ScrollsTo w.topRow w.viewRows w.selection.active.row w.reveal.topRow ∧
      ScrollsTo w.leftCol w.viewCols w.selection.active.col w.reveal.leftCol ∧
      w.reveal.reveal = w.reveal := by
  have hrow := scrollsTo_scrolled hrows hwords.rows hwords.row
  have hcol := scrollsTo_scrolled hcols hwords.cols hwords.col
  -- the window that is reached ends in the words, so it can be revealed again
  have hend : w.reveal.topRow + w.viewRows < Word.size := by
    obtain ⟨next, hnext, -, -, hword⟩ :=
      scrolled?_shows (Nat.lt_succ_self _) hwords.row hrows hwords.rows
    rwa [show w.reveal.topRow = next from congrArg (Option.getD · w.topRow) hnext]
  have hend' : w.reveal.leftCol + w.viewCols < Word.size := by
    obtain ⟨next, hnext, -, -, hword⟩ :=
      scrolled?_shows (Nat.lt_succ_self _) hwords.col hcols hwords.cols
    rwa [show w.reveal.leftCol = next from congrArg (Option.getD · w.leftCol) hnext]
  exact ⟨hrow, hcol, reveal_of_shows hend hend' hrow.shows hcol.shows⟩

/-- Whatever it is that scrolls, it reveals the active cell in the window that was there. -/
theorem exists_reveal_of_scroll (h : a.isPossible w = true) :
    ∃ v : Workspace γ, w.scroll a = v.reveal ∧ v.topRow = w.topRow ∧ v.leftCol = w.leftCol := by
  cases a with
  | reveal => exact ⟨w, rfl, rfl, rfl⟩
  | step d extend => exact ⟨_, rfl, rfl, rfl⟩
  | resize rows cols =>
    exact ⟨{ w with viewRows := max rows 1, viewCols := max cols 1 }, rfl, rfl, rfl⟩
  | commit =>
    obtain ⟨entry, hentry⟩ := Option.isSome_iff_exists.1 h
    obtain ⟨htop, hleft⟩ := (touchesOnly_commit w).same .window (by decide)
    exact ⟨_, commitAndStep_of_some hentry, htop, hleft⟩

/-- Whatever scrolls to the active cell, and from wherever: in both directions the window starts at
the nearest line from which it shows the active cell, which is the line before if it shows the cell
from there, and scrolling to the cell again changes nothing. -/
theorem scroll_is_least (h : a.isPossible w = true) (hrows : 1 ≤ (w.scroll a).viewRows)
    (hcols : 1 ≤ (w.scroll a).viewCols) (hwords : AreWords w (w.scroll a)) :
    let v := w.scroll a
    let p := v.selection.active
    ScrollsTo w.topRow v.viewRows p.row v.topRow ∧ ScrollsTo w.leftCol v.viewCols p.col v.leftCol ∧
      (Shows w.topRow v.viewRows p.row → v.topRow = w.topRow) ∧
      (Shows w.leftCol v.viewCols p.col → v.leftCol = w.leftCol) ∧ v.reveal = v := by
  obtain ⟨u, hu, htop, hleft⟩ := exists_reveal_of_scroll h
  rw [hu] at hrows hcols hwords ⊢
  intro v p
  have hsums : AreWords u u.reveal :=
    ⟨htop ▸ hwords.rows, hleft ▸ hwords.cols, hwords.row, hwords.col⟩
  obtain ⟨hrow, hcol, hagain⟩ := @reveal_scrollsTo γ u hrows hcols hsums
  rw [htop] at hrow
  rw [hleft] at hcol
  exact ⟨hrow, hcol, hrow.stays, hcol.stays, hagain⟩

/-- An edit in a window that shows one cell is committed: the window moves down by a row and stays in
its column. -/
theorem scroll_is_least_narrowWindow :
    let w := ((Workspace.open smallSheet MemoryArchive.empty .empty).resize 1 1).editActive
    let v := w.scroll .commit
    Scrolling.commit.isPossible w = true ∧ 1 ≤ v.viewRows ∧ 1 ≤ v.viewCols ∧ AreWords w v ∧
      v.selection.active = ⟨1, 0⟩ ∧ ScrollsTo 0 1 1 v.topRow ∧ v.leftCol = 0 := by
  intro w v
  have hpossible : Scrolling.commit.isPossible w = true := by decide +kernel
  have hrows : v.viewRows = 1 := by decide +kernel
  have hcols : v.viewCols = 1 := by decide +kernel
  have htop : w.topRow = 0 := by decide +kernel
  have hleft : w.leftCol = 0 := by decide +kernel
  have hactive : v.selection.active = ⟨1, 0⟩ := by decide +kernel
  have hwords : AreWords w v := by
    constructor <;> simp only [hrows, hcols, htop, hleft, hactive] <;> decide
  obtain ⟨hrow, -, -, hstays, -⟩ := scroll_is_least hpossible hrows.ge hcols.ge hwords
  have hrow : ScrollsTo w.topRow v.viewRows v.selection.active.row v.topRow := hrow
  have hstays : Shows w.leftCol v.viewCols v.selection.active.col → v.leftCol = w.leftCol := hstays
  rw [htop, hrows, hactive] at hrow
  rw [hleft, hcols, hactive] at hstays
  exact ⟨hpossible, hrows.ge, hcols.ge, hwords, hactive, hrow, hstays ⟨by decide, by decide⟩⟩

end Workspace

end Spreadsheet
