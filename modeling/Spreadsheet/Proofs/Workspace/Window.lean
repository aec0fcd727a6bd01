import Spreadsheet.Proofs.Workspace.Addressing

/-!
# Spreadsheet.Proofs.Workspace.Window — the window stays on the sheet

The first row and column shown lie on the sheet (`InWindow`), whatever size the window is given: a
line that is scrolled to is the first one, the active one, or above the active one.  A sum of a line
and a size that leaves the words stops the program and scrolls nothing.  `live_addressing` puts this
together with what is known of the cells and the selection.
-/

namespace Spreadsheet

namespace Workspace

/-! ### One direction -/

section Lines

variable {first active size count l : Nat}

/-- A window is scrolled up to the active line, down just so far that the active line is its last one,
or not at all. -/
theorem scrolled?_eq_some_iff :
    scrolled? first active size = some l ↔
      active < first ∧ l = active ∨
        first ≤ active ∧ first + size < Word.size ∧
          (first + size ≤ active ∧ active + 1 < Word.size ∧ size ≤ active + 1 ∧
              l = active + 1 - size ∨
            active < first + size ∧ l = first) := by
  unfold scrolled?
  split_ifs with hbefore
  · rw [Option.some.injEq]
    omega
  · simp only [Option.bind_eq_bind, Option.bind_eq_some_iff, Word.add?_eq_some_iff, Option.pure_def]
    constructor
    · rintro ⟨behind, ⟨hsum, rfl⟩, hl⟩
      split_ifs at hl with hbehind
      · obtain ⟨next, ⟨hnext, rfl⟩, hl⟩ := Option.bind_eq_some_iff.1 hl |>.imp fun _ h =>
          h.imp_left Word.add?_eq_some_iff.1
        obtain ⟨hsize, rfl⟩ := Word.sub?_eq_some_iff.1 hl
        omega
      · rw [Option.some.injEq] at hl
        omega
    · rintro (⟨hlt, -⟩ | ⟨-, hsum, ⟨hbehind, hnext, hsize, rfl⟩ | ⟨hshown, rfl⟩⟩)
      · exact absurd hlt hbefore
      · refine ⟨_, ⟨hsum, rfl⟩, ?_⟩
        rw [if_pos hbehind, Word.add?_eq hnext, Option.bind_some, Word.sub?_eq hsize]
      · exact ⟨_, ⟨hsum, rfl⟩, if_neg (by omega)⟩

/-- Where the sums are words, a window is scrolled to the first line clamped between the least and the
largest one from which it shows the active line. -/
theorem scrolled?_eq (hsize : 1 ≤ size) (hsum : first + size < Word.size)
    (hactive : active + 1 < Word.size) :
    scrolled? first active size = some (max (min first active) (active + 1 - size)) := by
  rw [scrolled?_eq_some_iff]
  omega

/-- A window that begins among `count` lines and is scrolled to one of them still begins among them. -/
theorem scrolled_lt (hfirst : first < count) (hactive : active < count) (hsize : 1 ≤ size) :
    scrolled first active size < count := by
  unfold scrolled
  cases hl : scrolled? first active size with
  | none => exact hfirst
  | some l =>
    rw [scrolled?_eq_some_iff] at hl
    rw [Option.getD_some]
    omega

end Lines

/-! ### Both directions -/

variable {γ : Type}

/-- The first row and column shown lie on the sheet, and something is shown. -/
structure InWindow (w : Workspace γ) : Prop where
  topRow : w.topRow < w.dims.rows
  leftCol : w.leftCol < w.dims.cols
  viewRows : 1 ≤ w.viewRows
  viewCols : 1 ≤ w.viewCols

variable {w w' : Workspace γ}

theorem InWindow.frame (h : InWindow w) (hd : w.dims ≤ w'.dims) (hwindow : Part.window.Same w w')
    (hroom : Part.room.Same w w') : InWindow w' where
  topRow := hwindow.1 ▸ Nat.lt_of_lt_of_le h.topRow hd.1
  leftCol := hwindow.2 ▸ Nat.lt_of_lt_of_le h.leftCol hd.2
  viewRows := hroom.1 ▸ h.viewRows
  viewCols := hroom.2 ▸ h.viewCols

/-- Scrolling to a cell of the sheet keeps the window on it. -/
theorem InWindow.reveal (h : InWindow w) (hactive : w.dims.contains w.selection.active = true) :
    InWindow w.reveal := by
  obtain ⟨hrow, hcol⟩ := Dimensions.contains_iff.1 hactive
  exact ⟨scrolled_lt h.topRow hrow h.viewRows, scrolled_lt h.leftCol hcol h.viewCols, h.viewRows,
    h.viewCols⟩

theorem InWindow.step (h : InWindow w) {d : Direction} {extend : Bool}
    (hactive : w.dims.contains (w.step d extend).selection.active = true) :
    InWindow (w.step d extend) :=
  reveal ⟨h.topRow, h.leftCol, h.viewRows, h.viewCols⟩ hactive

theorem InWindow.resize (h : InWindow w) (hactive : w.dims.contains w.selection.active = true)
    (rows cols : Nat) : InWindow (w.resize rows cols) :=
  reveal ⟨h.topRow, h.leftCol, Nat.le_max_right rows 1, Nat.le_max_right cols 1⟩ hactive

/-- The window starts anew after an import. -/
theorem InWindow.importTable (h : InWindow w) (path : String) : InWindow (w.importTable path).2 := by
  unfold Workspace.importTable
  split
  · rename_i t ht
    have hchange := touchesOnly_change { w with dims := roomFor w.dims t } t.grid
    obtain ⟨hrows, hcols⟩ := hchange.same .room (by decide)
    rw [adopt_eq]
    exact ⟨Dimensions.rows_pos _, Dimensions.cols_pos _, hrows.symm ▸ h.viewRows,
      hcols.symm ▸ h.viewCols⟩
  · exact ⟨h.topRow, h.leftCol, h.viewRows, h.viewCols⟩

theorem InWindow.confirm (h : InWindow w) : InWindow w.confirm := by
  rw [confirm_eq]
  have htransfer : InWindow w.transfer := by
    unfold transfer
    split
    · obtain ⟨files, message, he⟩ := exportTable_eq w w.promptPath
      rw [he]
      exact ⟨h.topRow, h.leftCol, h.viewRows, h.viewCols⟩
    · split_ifs
      · exact h
      · exact h.importTable _
    · exact h
  exact ⟨htransfer.topRow, htransfer.leftCol, htransfer.viewRows, htransfer.viewCols⟩

/-! ### Everything that is done and happens -/

section Actions

variable [Archive γ]

/-- Every action keeps the window on the sheet. -/
theorem InWindow.act (h : InWindow w) (hp : IsPlaced w) (a : Action γ) : InWindow (w.act a) := by
  have hle := (dims_act hp.words a).1
  have hactive := (hp.act a).selection.active
  by_cases hwindow : Part.window ∈ a.touches
  · -- the actions that scroll; the cell they scroll to is on the sheet
    cases a with
    | commitAndStep =>
      have htouches := touchesOnly_commit w
      have hcommit : InWindow w.commit.2 :=
        h.frame (htouches.same .size (by decide) ▸ Dimensions.le_refl _)
          (htouches.same .window (by decide)) (htouches.same .room (by decide))
      change w.commitAndStep.dims.contains w.commitAndStep.selection.active = true at hactive
      show InWindow w.commitAndStep
      rcases commitAndStep_cases w with he | he <;> rw [he] at hactive ⊢
      · exact hcommit
      · exact hcommit.step hactive
    | step d extend => exact h.step hactive
    | resize rows cols => exact h.resize hactive rows cols
    | importTable path => exact h.importTable path
    | confirm => exact h.confirm
    | _ => simp [Action.touches] at hwindow
  · -- the same window on a sheet that is no smaller
    have htouches := touchesOnly_act w a
    have hroom : Part.room ∉ a.touches := by cases a <;> simp_all [Action.touches]
    exact h.frame hle (htouches.same .window hwindow) (htouches.same .room hroom)

theorem InWindow.live (h : InWindow w) (hp : IsPlaced w) (hs : List (Happening γ)) :
    InWindow (w.live hs) := by
  have hkept (v : Workspace γ) (a : Action γ) (hv : IsPlaced v ∧ InWindow v) :
      IsPlaced (v.act a) ∧ InWindow (v.act a) := ⟨hv.1.act a, hv.2.act hv.1 a⟩
  induction hs generalizing w with
  | nil => exact h
  | cons e hs ih =>
    obtain ⟨hp', h'⟩ := happen_preserves (P := fun v => IsPlaced v ∧ InWindow v) e
      (fun rows cols _ => hkept w (.resize rows cols) ⟨hp, h⟩) (fun v a _ _ hv => hkept v a hv) ⟨hp, h⟩
    exact ih h' hp'

theorem inWindow_open (o : Options) (archive : γ) (files : FileSystem) :
    InWindow (Workspace.open o archive files) := by
  obtain ⟨grid, dims, message, stopped, he⟩ := open_eq o archive files
  rw [he]
  exact ⟨dims.rows_pos, dims.cols_pos, by simp [fresh], by simp [fresh]⟩

/-! ### The whole -/

/-- Once a sheet is open, everything stays on it, the window begins on it, and it never shrinks,
whatever happens: the active cell, the corners of the range, the anchor of a drag, the edited cell, and
the cells that are filled now or were before. -/
theorem live_addressing {o : Options} {archive : γ} {files : FileSystem}
    (hstart : WordsStart o archive files) (hopen : (Workspace.open o archive files).stopped = false)
    {hs hs' : List (Happening γ)}
    (hfits : FitsThroughout (Workspace.open o archive files) (hs ++ hs')) :
    let w := (Workspace.open o archive files).live hs
    let w' := w.live hs'
    (0 < w'.dims.rows ∧ 0 < w'.dims.cols ∧ w.dims.rows ≤ w'.dims.rows ∧ w.dims.cols ≤ w'.dims.cols) ∧
      w'.dims.contains w'.selection.active = true ∧
      (∀ r, w'.selection.range = some r →
        w'.dims.contains r.start = true ∧ w'.dims.contains r.stop = true) ∧
      (∀ anchor, w'.selection.activity = .dragging anchor → w'.dims.contains anchor = true) ∧
      (∀ entry, w'.selection.activity = .editing entry → w'.dims.contains entry.cell = true) ∧
      (∀ g, g = w'.grid ∨ g ∈ w'.history.states →
        ∀ e ∈ g.entries, w'.dims.contains e.1 = true ∧ Text.isBlankText e.2 = false) ∧
      w'.topRow < w'.dims.rows ∧ w'.leftCol < w'.dims.cols := by
  intro w w'
  obtain ⟨hfirst, hrest⟩ := Run.along_append.1 hfits
  have hw : OnSheet w := ((hstart.soundStart hopen).onSheet.live hfirst).1
  obtain ⟨hw', hle⟩ := hw.live hrest
  -- the window needs only that the selection is on the sheet, not that files fit
  have hwindow : InWindow w' :=
    ((inWindow_open o archive files).live hstart.isPlaced hs).live hw.isPlaced hs'
  have hactivity := hw'.selection.activity
  refine ⟨⟨w'.dims.rows_pos, w'.dims.cols_pos, hle⟩, hw'.selection.active, hw'.selection.range,
    fun anchor ha => ?_, fun entry he => ?_, fun g hg e he => ⟨?_, g.filled e he⟩, hwindow.topRow,
    hwindow.leftCol⟩
  · rw [ha] at hactivity
    exact hactivity
  · rw [he] at hactivity
    exact hactivity
  · rcases hg with rfl | hg
    · exact hw'.grid e he
    · exact hw'.history g hg e he

end Actions

/-- The options of a sheet with one column. -/
def oneColumn (rows : Nat) (h : 0 < rows) : Options :=
  ⟨"sheet", ⟨rows, 1, h, by decide⟩, 10, 1000, 100, false⟩

/-- The key that steps down. -/
def keyDown : Happening MemoryArchive := .key .down Modifiers.none

/-- A sheet of two rows of which one is shown: the active cell is moved down, and the window with it,
and another row is added. -/
theorem live_addressing_oneColumn :
    let start := Workspace.open (oneColumn 2 (by decide)) MemoryArchive.empty .empty
    let w := start.live [.view 1 1, keyDown]
    let w' := w.live [.key (.char 'r') ⟨true, false, false⟩]
    WordsStart (oneColumn 2 (by decide)) MemoryArchive.empty .empty ∧ start.stopped = false ∧
      FitsThroughout start ([.view 1 1, keyDown] ++ [.key (.char 'r') ⟨true, false, false⟩]) ∧
      (w.dims.rows ≤ w'.dims.rows ∧ w.dims.cols ≤ w'.dims.cols) ∧
      w'.selection.active = ⟨1, 0⟩ ∧ w'.dims.contains w'.selection.active = true ∧
      w'.topRow = 1 ∧ w'.topRow < w'.dims.rows := by
  intro start w w'
  have hstart : WordsStart (oneColumn 2 (by decide)) MemoryArchive.empty .empty :=
    ⟨⟨by decide, by decide⟩, fun d hd => by cases hd⟩
  have hfits : FitsThroughout start
      ([.view 1 1, keyDown] ++ [.key (.char 'r') ⟨true, false, false⟩]) :=
    fitsThroughout_of_empty (by decide +kernel)
  obtain ⟨⟨-, -, hsize⟩, hactive, -, -, -, -, htop, -⟩ := live_addressing hstart rfl hfits
  exact ⟨hstart, rfl, hfits, hsize, by decide +kernel, hactive, by decide +kernel, htop⟩

end Workspace

end Spreadsheet
