import Mathlib.Tactic.SplitIfs
import Spreadsheet.Workspace.Gestures
import Spreadsheet.Workspace.Transfer

/-!
# Spreadsheet.Proofs.Workspace.Operations — what the operations of a workspace come to

`SameSheet` compares workspaces up to messages, prompts and the clipboard.  Up to that, every
operation that changes cells is `change` applied to a grid, and this module has one lemma per
operation that says which: proofs about runs use these and do not look into the operations again.
-/

namespace Spreadsheet

namespace Selection

variable {s : Selection}

theorem takeEdit_of_none (h : s.entry? = none) : s.takeEdit = (none, s) := by
  unfold entry? at h
  unfold takeEdit
  split <;> simp_all

theorem takeEdit_of_some {entry : CellEdit} (h : s.entry? = some entry) :
    s.takeEdit = (some entry, { s with activity := .idle }) := by
  unfold entry? at h
  unfold takeEdit
  split <;> simp_all

end Selection

namespace Workspace

variable {γ : Type}

/-- The same sheet in the same window, whatever is said about it. -/
structure SameSheet (w w' : Workspace γ) : Prop where
  sheetId : w'.sheetId = w.sheetId
  grid : w'.grid = w.grid
  dims : w'.dims = w.dims
  selection : w'.selection = w.selection
  history : w'.history = w.history
  saveState : w'.saveState = w.saveState
  topRow : w'.topRow = w.topRow
  leftCol : w'.leftCol = w.leftCol
  viewRows : w'.viewRows = w.viewRows
  viewCols : w'.viewCols = w.viewCols
  timer : w'.timer = w.timer
  archive : w'.archive = w.archive
  files : w'.files = w.files
  clock : w'.clock = w.clock

variable {w w' w'' : Workspace γ}

theorem SameSheet.refl (w : Workspace γ) : SameSheet w w := by
  constructor <;> rfl

theorem SameSheet.trans (h : SameSheet w w') (h' : SameSheet w' w'') : SameSheet w w'' where
  sheetId := h'.sheetId.trans h.sheetId
  grid := h'.grid.trans h.grid
  dims := h'.dims.trans h.dims
  selection := h'.selection.trans h.selection
  history := h'.history.trans h.history
  saveState := h'.saveState.trans h.saveState
  topRow := h'.topRow.trans h.topRow
  leftCol := h'.leftCol.trans h.leftCol
  viewRows := h'.viewRows.trans h.viewRows
  viewCols := h'.viewCols.trans h.viewCols
  timer := h'.timer.trans h.timer
  archive := h'.archive.trans h.archive
  files := h'.files.trans h.files
  clock := h'.clock.trans h.clock

theorem sameSheet_say (w : Workspace γ) (text : String) : SameSheet w (w.say text) := by
  constructor <;> rfl

theorem open_eq [Archive γ] (o : Options) (archive : γ) (files : FileSystem) :
    ∃ grid dims message stopped,
      Workspace.open o archive files = { fresh o archive files grid dims message with stopped } := by
  unfold Workspace.open
  split <;> exact ⟨_, _, _, _, rfl⟩

theorem open_sheetId [Archive γ] (o : Options) (archive : γ) (files : FileSystem) :
    (Workspace.open o archive files).sheetId = o.sheetId := by
  obtain ⟨grid, dims, message, stopped, he⟩ := open_eq o archive files
  rw [he]
  rfl

/-! ### Changing cells -/

theorem change_same {g : Grid} (h : g = w.grid) : w.change g = (false, w) := by
  rw [change, if_pos h]

theorem change_new {g : Grid} (h : g ≠ w.grid) :
    w.change g
      = (true, scheduleSave { w with grid := g, history := w.history.push w.grid }) := by
  rw [change, if_neg h]

@[simp] theorem change_grid (w : Workspace γ) (g : Grid) : (w.change g).2.grid = g := by
  by_cases h : g = w.grid
  · rw [change_same h, h]
  · rw [change_new h]
    rfl

@[simp] theorem change_dims (w : Workspace γ) (g : Grid) : (w.change g).2.dims = w.dims := by
  by_cases h : g = w.grid
  · rw [change_same h]
  · rw [change_new h]
    rfl

@[simp] theorem change_selection (w : Workspace γ) (g : Grid) :
    (w.change g).2.selection = w.selection := by
  by_cases h : g = w.grid
  · rw [change_same h]
  · rw [change_new h]
    rfl

theorem SameSheet.change (h : SameSheet w w') (g : Grid) :
    SameSheet (w.change g).2 (w'.change g).2 := by
  by_cases hg : g = w.grid
  · rw [change_same hg, change_same (hg.trans h.grid.symm)]
    exact h
  · have hg' : g ≠ w'.grid := fun he => hg (he.trans h.grid)
    rw [change_new hg, change_new hg']
    obtain ⟨h1, h2, h3, h4, h5, h6, h7, h8, h9, h10, h11, h12, h13, h14⟩ := h
    constructor <;> simp only [scheduleSave, *]

theorem commit_of_none (h : w.selection.entry? = none) : w.commit = (false, w) := by
  unfold commit
  rw [Selection.takeEdit_of_none h]

/-- The text of the edit in progress is written to its cell. -/
theorem commit_of_some {entry : CellEdit} (h : w.selection.entry? = some entry) :
    w.commit
      = (true,
          (change { w with selection := { w.selection with activity := .idle } }
            (w.grid.set entry.cell entry.field.text)).2) := by
  unfold commit
  rw [Selection.takeEdit_of_some h]

/-- Committing and stepping commits, and steps down if there was an edit. -/
theorem commitAndStep_cases (w : Workspace γ) :
    w.commitAndStep = w.commit.2 ∨ w.commitAndStep = w.commit.2.step .down false := by
  unfold commitAndStep
  rcases w.commit with ⟨- | -, v⟩
  · exact .inl rfl
  · exact .inr rfl

theorem commitAndStep_of_some {entry : CellEdit} (h : w.selection.entry? = some entry) :
    w.commitAndStep = w.commit.2.step .down false := by
  unfold commitAndStep
  rw [commit_of_some h]

theorem clearRegion_same (w : Workspace γ) :
    SameSheet (w.change (w.grid.eraseWithin w.selection.region.rect)).2 w.clearRegion.2 := by
  unfold clearRegion
  simp only
  split <;> rename_i h <;> rw [h]
  · exact sameSheet_say _ _
  · exact .refl _

theorem copy_same (w : Workspace γ) : SameSheet w w.copy.2 := by
  unfold copy
  split
  · constructor <;> rfl
  · exact sameSheet_say _ _

/-- A cut that copies clears the region, and one that does not leaves everything as it is. -/
theorem cut_same (w : Workspace γ) :
    SameSheet
      (if w.clipboard.fault = none then (w.change (w.grid.eraseWithin w.selection.region.rect)).2
        else w)
      w.cut.2 := by
  have hcopy := w.copy_same
  unfold cut
  unfold copy Clipboard.write at *
  cases hf : w.clipboard.fault with
  | some e =>
    simp only [hf, reduceCtorEq, if_false] at hcopy ⊢
    exact hcopy
  | none =>
    simp only [hf, if_true] at hcopy ⊢
    have hclear := hcopy.change (w.grid.eraseWithin w.selection.region.rect)
    exact (hclear.trans (clearRegion_same _)).trans (sameSheet_say _ _)

/-- A paste writes its block and selects what it covers, unless it stops the program. -/
theorem paste_same (w : Workspace γ) {text : String} (h : w.clipboard.read = .ok text) :
    SameSheet
      { (w.change (Interchange.paste text w.selection.active w.grid w.dims).2).2 with
        selection :=
          ((Interchange.paste text w.selection.active w.grid w.dims).1.map w.selection.choose).getD
            w.selection }
      w.paste.2 := by
  unfold paste Interchange.paste
  rw [h]
  simp only
  -- without a result nothing is written; off the sheet nothing is selected
  cases Interchange.paste? text w.selection.active w.grid w.dims with
  | none =>
    simp only [Option.getD_none, Option.map_none, change_same]
    constructor <;> rfl
  | some result =>
    obtain ⟨covered, g⟩ := result
    cases covered with
    | some r =>
      simp only [Option.map_some, Option.getD_some, change_selection]
      constructor <;> rfl
    | none =>
      simp only [Option.map_none, Option.getD_none, Option.getD_some]
      constructor <;> simp [say]

theorem paste_of_error (w : Workspace γ) {e : ClipboardFault} (h : w.clipboard.read = .error e) :
    SameSheet w w.paste.2 := by
  unfold paste
  rw [h]
  exact sameSheet_say _ _

/-- The size of a sheet with room for a table. -/
def roomFor (d : Dimensions) (t : Table) : Dimensions :=
  if 0 < t.rows ∧ 0 < t.cols then d.including ⟨t.rows - 1, t.cols - 1⟩ else d

/-- An import replaces the cells, grows the sheet and starts the selection and the window anew; it
is saved even if the cells stay the same. -/
theorem adopt_eq (w : Workspace γ) (t : Table) :
    w.adopt t
      = { (change { w with dims := roomFor w.dims t } t.grid).2.scheduleSave with
          selection := Selection.start, topRow := 0, leftCol := 0 } := by
  unfold adopt
  by_cases h : t.grid = w.grid
  · have hc := change_same (w := { w with dims := roomFor w.dims t }) h
    unfold roomFor at hc ⊢
    simp only [hc]
  · have hc := change_new (w := { w with dims := roomFor w.dims t }) h
    unfold roomFor at hc ⊢
    simp only [hc]
    rfl

/-! ### Travelling through the history -/

section Travel

variable (w : Workspace γ) (step : Option Grid × History Grid) (done nothing : String)

@[simp] theorem travel_grid : (w.travel step done nothing).grid = step.1.getD w.grid := by
  unfold travel
  split <;> rfl

@[simp] theorem travel_history : (w.travel step done nothing).history = step.2 := by
  unfold travel
  split <;> rfl

@[simp] theorem travel_message :
    (w.travel step done nothing).message = some (if step.1.isSome then done else nothing) := by
  unfold travel
  split <;> rfl

end Travel

/-! ### Prompts -/

/-- What a prompt is for, once it is confirmed. -/
def transfer (w : Workspace γ) : Workspace γ :=
  match w.mode with
  | .exportPrompt => (w.exportTable w.promptPath).2
  | .importPrompt => if w.promptPath.isEmpty then w else (w.importTable w.promptPath).2
  | _ => w

theorem exportTable_eq (w : Workspace γ) (path : String) :
    ∃ files message, (w.exportTable path).2 = { w with files, message } := by
  unfold exportTable
  split
  · exact ⟨_, _, rfl⟩
  · exact ⟨w.files, _, rfl⟩

theorem exportTable_dims (w : Workspace γ) (path : String) :
    (w.exportTable path).2.dims = w.dims := by
  obtain ⟨files, message, he⟩ := exportTable_eq w path
  rw [he]

theorem confirm_eq (w : Workspace γ) : w.confirm = w.transfer.closePrompt := rfl

theorem sameSheet_closePrompt (w : Workspace γ) : SameSheet w w.closePrompt := by
  constructor <;> rfl

end Workspace

end Spreadsheet
