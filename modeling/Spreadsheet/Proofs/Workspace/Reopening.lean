import Spreadsheet.Proofs.Workspace.Leaving

/-!
# Spreadsheet.Proofs.Workspace.Reopening — a sheet that is saved and opened again

The size of a sheet is not read back as it is: it is made at least one by one and grown until it has
room for every cell.  On a workspace in which everything lies on the sheet neither changes anything,
so a sheet that was saved at once is opened again with the same cells and the same size, whatever
the options say, and shows the same in every cell (`Reopens`).
-/

namespace Spreadsheet

/-! ### The size of a document -/

/-- A sheet need not grow for what lies on it. -/
theorem Dimensions.including_eq_self {d : Dimensions} {p : Position} (hd : d.AreWords)
    (h : d.contains p = true) : d.including p = d := by
  obtain ⟨hrow, hcol⟩ := hasId_of_contains hd h
  rw [contains_iff] at h
  have hrows : max d.rows (Word.add p.row 1) = d.rows := by
    rw [Word.add_eq hrow]
    omega
  have hcols : max d.cols (Word.add p.col 1) = d.cols := by
    rw [Word.add_eq hcol]
    omega
  simp only [including, hrows, hcols]

/-- The document of a sheet has the size of the sheet if every cell lies on it. -/
theorem Document.dims_ofSheet {g : Grid} {d : Dimensions} (hd : d.AreWords) (h : g.Within d) :
    (ofSheet g d).dims = d := by
  have hleast : Dimensions.atLeastOne d.rows d.cols = d := by
    have hrows : max d.rows 1 = d.rows := Nat.max_eq_left d.rows_pos
    have hcols : max d.cols 1 = d.cols := Nat.max_eq_left d.cols_pos
    simp only [Dimensions.atLeastOne, hrows, hcols]
  unfold dims ofSheet
  simp only [hleast]
  split
  · rename_i corner hcorner
    exact Dimensions.including_eq_self hd (h.contains_extent hcorner)
  · rfl

namespace Workspace

variable {γ : Type} {w v : Workspace γ}

theorem OnSheet.dims_document (h : OnSheet w) : w.document.dims = w.dims :=
  Document.dims_ofSheet h.words h.grid

/-- Opening the document of what lies on the sheet does not stop the program. -/
theorem OnSheet.dims?_document (h : OnSheet w) : w.document.dims? = some w.dims := by
  rw [← h.dims_document]
  exact Document.dims?_eq_some_iff.2 ⟨h.storable_document.ids, rfl⟩

section Archives

variable [Archive γ]

/-! ### Saves -/

/-- The ways in which a workspace is saved: because a save is due, at once, or when it is left. -/
inductive SavedAs (w : Workspace γ) : Workspace γ → Prop where
  | due (now : Nat) (h : w.timer.hasExpired now = true) : SavedAs w (w.tick now).2
  | atOnce : SavedAs w w.saveAtOnce
  | onExit (hexit : w.savesOnExit = true) (hpending : w.timer.isRunning = true) : SavedAs w w.close

/-- A save hands the document of the sheet to the archive, and what the archive answers is noted. -/
theorem SavedAs.spec (h : SavedAs w v) :
    v.archive = (Archive.save w.archive w.files w.sheetId w.document).2.1 ∧
      v.files = (Archive.save w.archive w.files w.sheetId w.document).2.2 ∧
      v.saveState = w.saveOutcome := by
  cases h with
  | due now hdue =>
    unfold tick SaveTimer.fire
    rw [hdue]
    exact ⟨rfl, rfl, rfl⟩
  | atOnce =>
    unfold saveAtOnce
    simp only
    split <;> exact ⟨rfl, rfl, rfl⟩
  | onExit hexit hpending =>
    rw [close_of_pending hexit hpending]
    exact ⟨rfl, rfl, rfl⟩

/-- After a save that succeeds, the document of the sheet is the one that is loaded. -/
theorem SavedAs.loads (h : SavedAs w v) (hsheet : OnSheet w)
    (hreturns : ReturnsSaves w.archive w.files) (hsaved : v.saveState = .saved) :
    Archive.load v.archive v.files w.sheetId = .ok (some w.document) := by
  obtain ⟨harchive, hfiles, hstate⟩ := h.spec
  rw [harchive, hfiles]
  exact hreturns w.sheetId w.document hsheet.storable_document
    (accepted_of_saveOutcome (hstate.symm.trans hsaved))

/-! ### Saving at once and opening again -/

/-- The sheet of a workspace that is opened from a document is that of the document, if its size is in
words. -/
theorem open_of_document {o : Options} {archive : γ} {files : FileSystem} {d : Document}
    (h : Archive.load archive files o.sheetId = .ok (some d)) :
    Workspace.open o archive files =
      { fresh o archive files d.grid d.dims none with stopped := d.dims?.isNone } := by
  unfold Workspace.open
  rw [h]

/-- If the sheet is saved at once, it is opened again as it is, whatever the options are but for the
id of the sheet. -/
def Reopens (w : Workspace γ) : Prop :=
  w.saveAtOnce.saveState = .saved → ∀ o : Options, o.sheetId = w.sheetId →
    let again := Workspace.open o w.saveAtOnce.archive w.saveAtOnce.files
    again.stopped = false ∧ again.grid = w.grid ∧ again.dims = w.dims ∧
      ∀ p, again.shownAt p = w.shownAt p

theorem OnSheet.reopens (h : OnSheet w) (hreturns : ReturnsSaves w.archive w.files) : Reopens w := by
  intro hsaved o hid again
  have hload : Archive.load w.saveAtOnce.archive w.saveAtOnce.files o.sheetId
      = .ok (some w.document) := by
    rw [hid]
    exact SavedAs.atOnce.loads h hreturns hsaved
  have hopen : again = { fresh o w.saveAtOnce.archive w.saveAtOnce.files w.document.grid
      w.document.dims none with stopped := w.document.dims?.isNone } := open_of_document hload
  have hgrid : again.grid = w.grid := by
    rw [hopen]
    rfl
  have hdims : again.dims = w.dims := by
    rw [hopen]
    exact h.dims_document
  refine ⟨?_, hgrid, hdims, fun p => ?_⟩
  · rw [hopen, h.dims?_document]
    rfl
  · rw [shownAt, shownAt, hgrid, hdims]

end Archives

/-- Documents in a directory are a sound start for every size in words. -/
theorem soundStart_directory {o : Options} (h : o.dims.AreWords) (archive : DirectoryArchive)
    (files : FileSystem) : SoundStart o archive files where
  dims := h
  document d hd := by
    have hs := DirectoryArchive.storable_of_load hd
    exact ⟨hs.rows, hs.cols, hs.ids⟩

/-- Whatever has happened to a workspace, its sheet is opened again as it is once it has been saved
at once: with every archive that gives back what it accepts, with documents in memory unless loading
is refused, and with documents in a directory, wherever that is and whatever else is there. -/
theorem live_reopens :
    (∀ (γ : Type) [Archive γ] (o : Options) (archive : γ) (files : FileSystem)
        (hs : List (Happening γ)), SoundStart o archive files →
      FitsThroughout (Workspace.open o archive files) hs →
      let w := (Workspace.open o archive files).live hs
      ReturnsSaves w.archive w.files → Reopens w) ∧
    (∀ (o : Options) (archive : MemoryArchive) (files : FileSystem)
        (hs : List (Happening MemoryArchive)), SoundStart o archive files →
      FitsThroughout (Workspace.open o archive files) hs →
      let w := (Workspace.open o archive files).live hs
      w.archive.loadsRefused = none → Reopens w) ∧
    ∀ (o : Options) (archive : DirectoryArchive) (files : FileSystem)
        (hs : List (Happening DirectoryArchive)), o.dims.AreWords →
      FitsThroughout (Workspace.open o archive files) hs →
      Reopens ((Workspace.open o archive files).live hs) := by
  refine ⟨?_, ?_, ?_⟩
  · intro γ _ o archive files hs hstart hfits w hreturns
    exact (hstart.onSheet.live hfits).1.reopens hreturns
  · intro o archive files hs hstart hfits w hloads
    exact (hstart.onSheet.live hfits).1.reopens (MemoryArchive.returnsSaves hloads w.files)
  · intro o archive files hs hdims hfits
    have hstart := soundStart_directory hdims archive files
    exact (hstart.onSheet.live hfits).1.reopens (DirectoryArchive.returnsSaves _ _)

/-- A formula is typed into the last cell of a small sheet, and a row is added. -/
def growingRun {γ : Type} : List (Happening γ) :=
  [ .key .down Modifiers.none, .key .right Modifiers.none, .key .enter Modifiers.none,
    .key (.char '=') Modifiers.none, .key (.char '1') Modifiers.none, .key .enter Modifiers.none,
    .key (.char 'r') ⟨true, false, false⟩ ]

/-- A sheet of three rows is saved in a directory and in memory, and opened again with options for a
sheet of one cell. -/
theorem live_reopens_growingRun :
    let w := (Workspace.open smallSheet grids .empty).live growingRun
    let v := (Workspace.open smallSheet MemoryArchive.empty .empty).live growingRun
    let o : Options := ⟨"sheet", ⟨1, 1, by decide, by decide⟩, 10, 1000, 100, false⟩
    smallSheet.dims.AreWords ∧ SoundStart smallSheet MemoryArchive.empty .empty ∧
      FitsThroughout (Workspace.open smallSheet grids .empty) growingRun ∧
      FitsThroughout (Workspace.open smallSheet MemoryArchive.empty .empty) growingRun ∧
      v.archive.loadsRefused = none ∧ ReturnsSaves v.archive v.files ∧
      w.saveAtOnce.saveState = .saved ∧ v.saveAtOnce.saveState = .saved ∧
      w.grid.get? ⟨1, 1⟩ = some "=1" ∧ w.dims.rows = 3 ∧
      (Workspace.open o w.saveAtOnce.archive w.saveAtOnce.files).grid = w.grid ∧
      (Workspace.open o w.saveAtOnce.archive w.saveAtOnce.files).dims = w.dims ∧
      (Workspace.open o v.saveAtOnce.archive v.saveAtOnce.files).dims = v.dims ∧ Reopens v := by
  intro w v o
  obtain ⟨hall, hmemory, hdirectory⟩ := live_reopens
  have hwords : smallSheet.dims.AreWords := ⟨by decide, by decide⟩
  have hstart : SoundStart smallSheet MemoryArchive.empty .empty := ⟨hwords, fun d hd => by cases hd⟩
  have hfits : FitsThroughout (Workspace.open smallSheet grids .empty) growingRun :=
    fitsThroughout_of_empty (by decide +kernel)
  have hfits' : FitsThroughout (Workspace.open smallSheet MemoryArchive.empty .empty) growingRun :=
    fitsThroughout_of_empty (by decide +kernel)
  have hsaved : w.saveAtOnce.saveState = .saved := by decide +kernel
  have hsaved' : v.saveAtOnce.saveState = .saved := by decide +kernel
  have hreturns : ReturnsSaves v.archive v.files := MemoryArchive.returnsSaves rfl v.files
  obtain ⟨-, hgrid, hdims, -⟩ := hdirectory _ _ _ _ hwords hfits hsaved o rfl
  obtain ⟨-, -, hdims', -⟩ := hmemory _ _ _ _ hstart hfits' rfl hsaved' o rfl
  exact ⟨hwords, hstart, hfits, hfits', rfl, hreturns, hsaved, hsaved', by decide +kernel, rfl, hgrid,
    hdims, hdims', hall _ _ _ _ _ hstart hfits' hreturns⟩

end Workspace

end Spreadsheet
