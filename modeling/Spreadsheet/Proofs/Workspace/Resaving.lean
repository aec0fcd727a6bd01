import Spreadsheet.Proofs.Workspace.Reopening

/-!
# Spreadsheet.Proofs.Workspace.Resaving — a stored document that is opened and saved again

A workspace takes the cells and the size of the document that it is opened from, and nothing else.
So a document that it saves has the cells and the size of the sheet, those of the stored one if
nothing has changed, but always the standard kind: a stored document of another kind loses it at the
first save.
-/

namespace Spreadsheet

namespace Workspace

variable {γ : Type}

section Archives

variable [Archive γ] {w : Workspace γ}

/-! ### Runs that change nothing -/

theorem changesSheet_concat {as : List (Action γ)} (a : Action γ) (h : ChangesSheet w as) :
    ChangesSheet w (as ++ [a]) := by
  obtain ⟨before, b, after, rfl, hdiff⟩ := h
  exact ⟨before, b, after ++ [a], by simp, hdiff⟩

/-- A run in which no action changes the cells or the size leaves both as they were. -/
theorem sheet_of_not_changesSheet {as : List (Action γ)} (h : ¬ ChangesSheet w as) :
    (w.run as).grid = w.grid ∧ (w.run as).dims = w.dims := by
  induction as using List.reverseRecOn with
  | nil => exact ⟨rfl, rfl⟩
  | append_singleton as a ih =>
    obtain ⟨hgrid, hdims⟩ := ih fun hchanges => h (changesSheet_concat a hchanges)
    have hrun : w.run (as ++ [a]) = (w.run as).act a := List.foldl_append
    have hlast : ((w.run as).act a).grid = (w.run as).grid ∧
        ((w.run as).act a).dims = (w.run as).dims := by
      by_contra hdiff
      exact h ⟨as, a, [], rfl, not_and_or.1 hdiff⟩
    rw [hrun]
    exact ⟨hlast.1.trans hgrid, hlast.2.trans hdims⟩

/-! ### Documents that are opened and saved -/

/-- After every save that succeeds, in whatever way the sheet is saved after a run, the document that
is loaded has the cells and the size of the sheet and the standard kind.  If nothing has changed the
sheet, its cells and its size are those of the document `d` that the workspace was opened from. -/
def Resaves (start : Workspace γ) (d : Document) (as : List (Action γ)) : Prop :=
  let w := start.run as
  ∀ v, SavedAs w v → v.saveState = .saved →
    ∃ e, Archive.load v.archive v.files start.sheetId = .ok (some e) ∧
      e.kind = Document.standardKind ∧
      e.grid = w.grid ∧ e.rows = w.dims.rows ∧ e.cols = w.dims.cols ∧
      (¬ ChangesSheet start as → e.grid = d.grid ∧ e.rows = d.dims.rows ∧ e.cols = d.dims.cols)

theorem OnSheet.resaves {start : Workspace γ} {d : Document} {as : List (Action γ)}
    (h : OnSheet (start.run as)) (hgrid : start.grid = d.grid) (hdims : start.dims = d.dims)
    (hreturns : ReturnsSaves (start.run as).archive (start.run as).files) : Resaves start d as := by
  unfold Resaves
  intro w v hv hsaved
  have hloads : Archive.load v.archive v.files w.sheetId = .ok (some w.document) :=
    hv.loads h hreturns hsaved
  rw [show w.sheetId = start.sheetId from sheetId_run start as] at hloads
  refine ⟨w.document, hloads, rfl, rfl, rfl, rfl, fun hsame => ?_⟩
  obtain ⟨hgrid', hdims'⟩ := sheet_of_not_changesSheet hsame
  show w.grid = d.grid ∧ w.dims.rows = d.dims.rows ∧ w.dims.cols = d.dims.cols
  rw [show w.grid = start.grid from hgrid', show w.dims = start.dims from hdims', hgrid, hdims]
  exact ⟨rfl, rfl, rfl⟩

end Archives

/-- Whatever is done with a workspace that was opened from a document, every save that succeeds
stores the sheet as a document of the standard kind, with the cells and the size of the one that was
opened if nothing has changed them: with every archive that gives back what it accepts, with
documents in memory unless loading is refused, and with documents in a directory. -/
theorem run_resaves :
    (∀ (γ : Type) [Archive γ] (o : Options) (archive : γ) (files : FileSystem) (d : Document)
        (as : List (Action γ)), SoundStart o archive files →
      Archive.load archive files o.sheetId = .ok (some d) →
      let start := Workspace.open o archive files
      Run.Along act (fun v _ => v.files.FitsMemory) start as →
      ReturnsSaves (start.run as).archive (start.run as).files → Resaves start d as) ∧
    (∀ (o : Options) (archive : MemoryArchive) (files : FileSystem) (d : Document)
        (as : List (Action MemoryArchive)), SoundStart o archive files →
      Archive.load archive files o.sheetId = .ok (some d) →
      let start := Workspace.open o archive files
      Run.Along act (fun v _ => v.files.FitsMemory) start as →
      (start.run as).archive.loadsRefused = none → Resaves start d as) ∧
    ∀ (o : Options) (archive : DirectoryArchive) (files : FileSystem) (d : Document)
        (as : List (Action DirectoryArchive)), o.dims.AreWords →
      Archive.load archive files o.sheetId = .ok (some d) →
      let start := Workspace.open o archive files
      Run.Along act (fun v _ => v.files.FitsMemory) start as → Resaves start d as := by
  have hall (γ : Type) [Archive γ] (o : Options) (archive : γ) (files : FileSystem) (d : Document)
      (as : List (Action γ)) (hstart : SoundStart o archive files)
      (hload : Archive.load archive files o.sheetId = .ok (some d))
      (hfits : Run.Along act (fun v _ => v.files.FitsMemory) (Workspace.open o archive files) as)
      (hreturns : ReturnsSaves ((Workspace.open o archive files).run as).archive
        ((Workspace.open o archive files).run as).files) :
      Resaves (Workspace.open o archive files) d as := by
    have hopen := open_of_document hload
    refine (hstart.onSheet.run hfits).resaves ?_ ?_ hreturns
    · rw [hopen]
      rfl
    · rw [hopen]
      rfl
  -- documents in memory and in a directory are given back
  refine ⟨hall, ?_, ?_⟩
  · intro o archive files d as hstart hload start hfits hloads
    exact hall _ o archive files d as hstart hload hfits (MemoryArchive.returnsSaves hloads _)
  · intro o archive files d as hdims hload start hfits
    exact hall _ o archive files d as (soundStart_directory hdims archive files) hload hfits
      (DirectoryArchive.returnsSaves _ _)

/-- An archive in memory that keeps a document under the id of the small sheet. -/
def keeping (d : Document) : MemoryArchive := { MemoryArchive.empty with documents := [("sheet", d)] }

theorem soundStart_keeping {d : Document} (h : d.Storable) :
    SoundStart smallSheet (keeping d) .empty where
  dims := ⟨by decide, by decide⟩
  document e he := by
    obtain rfl : d = e := Option.some.inj (Except.ok.inj he)
    exact ⟨h.rows, h.cols, h.ids⟩

/-- A document of one cell is opened from memory and gets a new row, which is saved when it is due;
from a directory it is opened and saved at once.  The archive keeps its kind in neither case. -/
theorem run_resaves_ledger :
    let memory := keeping (oneCell "ledger")
    let files := (grids.save .empty "sheet" (oneCell "ledger")).2
    let grown := Workspace.open smallSheet memory .empty
    let opened := Workspace.open smallSheet grids files
    SoundStart smallSheet memory .empty ∧ ReturnsSaves memory .empty ∧
      Archive.load memory .empty "sheet" = .ok (some (oneCell "ledger")) ∧
      Archive.load grids files "sheet" = .ok (some (oneCell "ledger")) ∧
      SavedAs (grown.run [.appendRow]) ((grown.run [.appendRow]).tick 1000).2 ∧
      ((grown.run [.appendRow]).tick 1000).2.saveState = .saved ∧
      opened.saveAtOnce.saveState = .saved ∧ ¬ ChangesSheet opened [] ∧
      Resaves grown (oneCell "ledger") [.appendRow] ∧
      ∃ e, Archive.load opened.saveAtOnce.archive opened.saveAtOnce.files "sheet" = .ok (some e) ∧
        e.kind = Document.standardKind ∧ e.grid = (oneCell "ledger").grid ∧
        e.rows = 1 ∧ e.cols = 1 := by
  intro memory files grown opened
  obtain ⟨hall, -, hdirectory⟩ := run_resaves
  have hstart : SoundStart smallSheet memory .empty := soundStart_keeping (storable_oneCell "ledger")
  have hreturns : ReturnsSaves memory .empty := MemoryArchive.returnsSaves rfl .empty
  have hload : Archive.load memory .empty "sheet" = .ok (some (oneCell "ledger")) := rfl
  have hload' : Archive.load grids files "sheet" = .ok (some (oneCell "ledger")) :=
    DirectoryArchive.returnsSaves grids .empty "sheet" _ (storable_oneCell "ledger")
      (by decide +kernel)
  have hsaved : opened.saveAtOnce.saveState = .saved := by
    rw [show opened = _ from open_of_document hload']
    decide +kernel
  have hsame : ¬ ChangesSheet opened [] := by
    rintro ⟨before, a, after, heq, -⟩
    simp at heq
  have hgrown : Resaves grown (oneCell "ledger") [.appendRow] :=
    hall _ smallSheet memory .empty _ _ hstart hload ⟨FileSystem.fitsMemory_empty, trivial⟩ hreturns
  obtain ⟨e, he, hkind, -, -, -, hopened⟩ :=
    hdirectory smallSheet grids files _ [] ⟨by decide, by decide⟩ hload' trivial _ .atOnce hsaved
  rw [show opened.sheetId = "sheet" from open_sheetId smallSheet grids files] at he
  obtain ⟨hgrid, hrows, hcols⟩ := hopened hsame
  refine ⟨hstart, hreturns, hload, hload', .due 1000 (by decide +kernel), by decide +kernel, hsaved,
    hsame, hgrown, e, he, hkind, hgrid, hrows.trans (by decide +kernel),
    hcols.trans (by decide +kernel)⟩

/-- A ledger that is opened and saved at once is no ledger any more. -/
theorem saveAtOnce_forgets_kind :
    let w := Workspace.open smallSheet (keeping (oneCell "ledger")) .empty
    w.saveAtOnce.saveState = .saved ∧
      ∃ e, Archive.load w.saveAtOnce.archive w.saveAtOnce.files "sheet" = .ok (some e) ∧
        e.kind = "spreadsheet" ∧ e.kind ≠ (oneCell "ledger").kind :=
  ⟨by decide +kernel, _, rfl, rfl, by decide⟩

end Workspace

end Spreadsheet
