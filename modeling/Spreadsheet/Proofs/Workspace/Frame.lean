import Spreadsheet.Proofs.Workspace.Action
import Spreadsheet.Proofs.Workspace.Operations

/-!
# Spreadsheet.Proofs.Workspace.Frame — what an action leaves alone

A workspace has parts that actions touch one by one: the cells with their history, the size, the
selection, the window, what lies over the grid, the state of saving, and the world around.
`Action.touches` lists the parts that an action may touch, and `touchesOnly_act` says that it leaves
the others alone, and the id and the options of the sheet with them.  Invariants of runs look only at
the actions that touch what they speak of.  A stop is never taken back.
-/

namespace Spreadsheet

namespace Workspace

variable {γ : Type}

/-- A part of a workspace. -/
inductive Part where
  /-- The cells and their history. -/
  | cells
  | size
  | selection
  /-- The first lines shown. -/
  | window
  /-- How many lines are shown. -/
  | room
  | mode
  /-- The file name in a prompt. -/
  | prompt
  /-- The state of saving and its timer. -/
  | saving
  /-- The archive and the files. -/
  | world
deriving DecidableEq, Repr

/-- A part is the same in two workspaces. -/
def Part.Same (w w' : Workspace γ) : Part → Prop
  | cells => w'.grid = w.grid ∧ w'.history = w.history
  | size => w'.dims = w.dims
  | selection => w'.selection = w.selection
  | window => w'.topRow = w.topRow ∧ w'.leftCol = w.leftCol
  | room => w'.viewRows = w.viewRows ∧ w'.viewCols = w.viewCols
  | mode => w'.mode = w.mode
  | prompt => w'.fileName = w.fileName
  | saving => w'.saveState = w.saveState ∧ w'.timer = w.timer
  | world => w'.archive = w.archive ∧ w'.files = w.files

/-- Of all parts only these may be different, and a stop is not taken back. -/
structure TouchesOnly (parts : List Part) (w w' : Workspace γ) : Prop where
  sheetId : w'.sheetId = w.sheetId
  columnWidth : w'.columnWidth = w.columnWidth
  savesOnExit : w'.savesOnExit = w.savesOnExit
  same : ∀ part, part ∉ parts → part.Same w w'
  stopped : w.stopped = true → w'.stopped = true

/-- The parts that an action may touch. -/
def Action.touches : Action γ → List Part
  | .editActive | .edit _ | .dropEdit | .chooseAll | .drag _ | .release => [.selection]
  | .commitAndStep => [.cells, .selection, .window, .saving]
  | .step .. => [.selection, .window]
  | .press .. | .paste | .undo | .redo => [.cells, .selection, .saving]
  | .clearRegion | .cut => [.cells, .saving]
  | .appendRow | .appendCol => [.size, .saving]
  | .saveAtOnce | .tick _ => [.saving, .world]
  | .askExport | .askImport | .closePrompt => [.mode, .prompt]
  | .confirm => [.cells, .size, .selection, .window, .mode, .prompt, .saving, .world]
  | .editFileName _ => [.prompt]
  | .showHelp | .leaveHelp => [.mode]
  | .exportTable _ | .outside .. => [.world]
  | .importTable _ => [.cells, .size, .selection, .window, .saving]
  | .resize .. => [.window, .room]
  | _ => []

section Touches

variable {w w' w'' : Workspace γ} {parts parts' : List Part}

theorem Part.Same.refl (w : Workspace γ) (part : Part) : part.Same w w := by
  cases part <;> simp [Part.Same]

theorem Part.Same.trans {part : Part} (h : part.Same w w') (h' : part.Same w' w'') :
    part.Same w w'' := by
  cases part <;> simp_all [Part.Same]

theorem TouchesOnly.refl (parts : List Part) (w : Workspace γ) : TouchesOnly parts w w :=
  ⟨rfl, rfl, rfl, fun part _ => .refl w part, id⟩

theorem TouchesOnly.trans (h : TouchesOnly parts w w') (h' : TouchesOnly parts w' w'') :
    TouchesOnly parts w w'' where
  sheetId := h'.sheetId.trans h.sheetId
  columnWidth := h'.columnWidth.trans h.columnWidth
  savesOnExit := h'.savesOnExit.trans h.savesOnExit
  same part hpart := (h.same part hpart).trans (h'.same part hpart)
  stopped hstopped := h'.stopped (h.stopped hstopped)

theorem TouchesOnly.mono (h : TouchesOnly parts w w') (hsub : parts ⊆ parts') :
    TouchesOnly parts' w w' :=
  ⟨h.sheetId, h.columnWidth, h.savesOnExit, fun part hpart => h.same part fun hmem =>
    hpart (hsub hmem), h.stopped⟩

/-! ### Operations -/

theorem touchesOnly_select (w : Workspace γ) (s : Selection) (message : Option String) :
    TouchesOnly [.selection] w { w with selection := s, message } := by
  refine ⟨rfl, rfl, rfl, fun part hpart => ?_, id⟩
  cases part <;> simp_all [Part.Same]

theorem touchesOnly_say (w : Workspace γ) (s : String) : TouchesOnly [] w (w.say s) := by
  refine ⟨rfl, rfl, rfl, fun part _ => ?_, id⟩
  cases part <;> simp [Part.Same, say]

theorem touchesOnly_scheduleSave (w : Workspace γ) : TouchesOnly [.saving] w w.scheduleSave := by
  refine ⟨rfl, rfl, rfl, fun part hpart => ?_, id⟩
  cases part <;> simp_all [Part.Same, scheduleSave]

theorem touchesOnly_change (w : Workspace γ) (g : Grid) :
    TouchesOnly [.cells, .saving] w (w.change g).2 := by
  by_cases h : g = w.grid
  · rw [change_same h]
    exact .refl _ w
  · rw [change_new h]
    refine ⟨rfl, rfl, rfl, fun part hpart => ?_, id⟩
    cases part <;> simp_all [Part.Same, scheduleSave]

theorem touchesOnly_commit (w : Workspace γ) :
    TouchesOnly [.cells, .selection, .saving] w w.commit.2 := by
  cases he : w.selection.entry? with
  | none =>
    rw [commit_of_none he]
    exact .refl _ w
  | some entry =>
    rw [commit_of_some he]
    have hidle := touchesOnly_select w { w.selection with activity := .idle } w.message
    exact (hidle.mono (by decide)).trans ((touchesOnly_change _ _).mono (by decide))

theorem touchesOnly_reveal (w : Workspace γ) : TouchesOnly [.window] w w.reveal := by
  refine ⟨rfl, rfl, rfl, fun part hpart => ?_, fun h => ?_⟩
  · cases part <;> simp_all [Part.Same, reveal]
  · simp [reveal, h]

theorem touchesOnly_resize (w : Workspace γ) (rows cols : Nat) :
    TouchesOnly [.window, .room] w (w.resize rows cols) := by
  refine TouchesOnly.trans ?_ ((touchesOnly_reveal _).mono (by decide))
  refine ⟨rfl, rfl, rfl, fun part hpart => ?_, id⟩
  cases part <;> simp_all [Part.Same]

theorem touchesOnly_step (w : Workspace γ) (d : Direction) (extend : Bool) :
    TouchesOnly [.selection, .window] w (w.step d extend) := by
  refine TouchesOnly.trans ?_ ((touchesOnly_reveal _).mono (by decide))
  refine ⟨rfl, rfl, rfl, fun part hpart => ?_, fun h => ?_⟩
  · cases part <;> simp_all [Part.Same]
  · simp [h]

theorem touchesOnly_commitAndStep (w : Workspace γ) :
    TouchesOnly [.cells, .selection, .window, .saving] w w.commitAndStep := by
  have hcommit := (touchesOnly_commit w).mono
    (show _ ⊆ [.cells, .selection, .window, .saving] by decide)
  rcases commitAndStep_cases w with he | he <;> rw [he]
  · exact hcommit
  · exact hcommit.trans ((touchesOnly_step _ _ _).mono (by decide))

theorem touchesOnly_clearRegion (w : Workspace γ) :
    TouchesOnly [.cells, .saving] w w.clearRegion.2 := by
  have hchange := touchesOnly_change w (w.grid.eraseWithin w.selection.region.rect)
  unfold clearRegion
  simp only
  split <;> rename_i hc <;> rw [hc] at hchange
  · exact hchange.trans ((touchesOnly_say _ _).mono (by decide))
  · exact hchange

theorem touchesOnly_copy (w : Workspace γ) : TouchesOnly [] w w.copy.2 := by
  unfold copy
  split
  · refine ⟨rfl, rfl, rfl, fun part _ => ?_, id⟩
    cases part <;> simp [Part.Same, say]
  · exact touchesOnly_say _ _

theorem touchesOnly_cut (w : Workspace γ) : TouchesOnly [.cells, .saving] w w.cut.2 := by
  have hcopy := (touchesOnly_copy w).mono (show _ ⊆ [.cells, .saving] by decide)
  unfold cut
  split <;> rename_i hc <;> rw [hc] at hcopy
  · exact hcopy
  · exact (hcopy.trans (touchesOnly_clearRegion _)).trans ((touchesOnly_say _ _).mono (by decide))

theorem touchesOnly_stop (w : Workspace γ) : TouchesOnly [] w w.stop := by
  refine ⟨rfl, rfl, rfl, fun part _ => ?_, fun _ => rfl⟩
  cases part <;> simp [Part.Same, stop]

theorem touchesOnly_paste (w : Workspace γ) :
    TouchesOnly [.cells, .selection, .saving] w w.paste.2 := by
  unfold paste
  split
  · exact (touchesOnly_say _ _).mono (by decide)
  · split
    · rename_i r g hpaste
      exact ((touchesOnly_change w g).mono (by decide)).trans
        ((touchesOnly_select _ _ _).mono (by decide))
    · exact ((touchesOnly_change w _).mono (by decide)).trans ((touchesOnly_say _ _).mono (by decide))
    · exact (touchesOnly_stop w).mono (by decide)

theorem touchesOnly_travel (w : Workspace γ) (step : Option Grid × History Grid)
    (done nothing : String) :
    TouchesOnly [.cells, .selection, .saving] w (w.travel step done nothing) := by
  unfold travel
  split <;> refine ⟨rfl, rfl, rfl, fun part hpart => ?_, id⟩ <;> cases part <;>
    simp_all [Part.Same, say, scheduleSave]

theorem touchesOnly_importTable (w : Workspace γ) (path : String) :
    TouchesOnly [.cells, .size, .selection, .window, .saving] w (w.importTable path).2 := by
  unfold importTable
  split
  · rename_i t ht
    have hgrown : TouchesOnly [.cells, .size, .selection, .window, .saving] w
        { w with dims := roomFor w.dims t } := by
      refine ⟨rfl, rfl, rfl, fun part hpart => ?_, id⟩
      cases part <;> simp_all [Part.Same]
    have hchange := hgrown.trans ((touchesOnly_change _ t.grid).mono (by decide))
    have hsaved := hchange.trans ((touchesOnly_scheduleSave _).mono (by decide))
    rw [adopt_eq]
    refine hsaved.trans ⟨rfl, rfl, rfl, fun part hpart => ?_, id⟩
    cases part <;> simp_all [Part.Same, say]
  · exact (touchesOnly_say _ _).mono (by decide)

theorem touchesOnly_exportTable (w : Workspace γ) (path : String) :
    TouchesOnly [.world] w (w.exportTable path).2 := by
  obtain ⟨files, message, he⟩ := exportTable_eq w path
  rw [he]
  refine ⟨rfl, rfl, rfl, fun part hpart => ?_, id⟩
  cases part <;> simp_all [Part.Same]

theorem touchesOnly_transfer (w : Workspace γ) :
    TouchesOnly [.cells, .size, .selection, .window, .saving, .world] w w.transfer := by
  unfold transfer
  split
  · exact (touchesOnly_exportTable w _).mono (by decide)
  · split
    · exact .refl _ w
    · exact (touchesOnly_importTable w _).mono (by decide)
  · exact .refl _ w

theorem touchesOnly_closePrompt (w : Workspace γ) :
    TouchesOnly [.mode, .prompt] w w.closePrompt := by
  refine ⟨rfl, rfl, rfl, fun part hpart => ?_, id⟩
  cases part <;> simp_all [Part.Same, closePrompt]

theorem touchesOnly_confirm (w : Workspace γ) :
    TouchesOnly [.cells, .size, .selection, .window, .mode, .prompt, .saving, .world] w w.confirm :=
  ((touchesOnly_transfer w).mono (by decide)).trans ((touchesOnly_closePrompt _).mono (by decide))

section Archives

variable [Archive γ]

theorem touchesOnly_save (w : Workspace γ) (timer : SaveTimer) :
    TouchesOnly [.saving, .world] w (save { w with timer }) := by
  refine ⟨rfl, rfl, rfl, fun part hpart => ?_, id⟩
  cases part <;> simp_all [Part.Same, save]

theorem touchesOnly_tick (w : Workspace γ) (now : Nat) :
    TouchesOnly [.saving, .world] w (w.tick now).2 := by
  unfold tick
  simp only
  split
  · exact touchesOnly_save w _
  · exact .refl _ w

theorem touchesOnly_saveAtOnce (w : Workspace γ) : TouchesOnly [.saving, .world] w w.saveAtOnce := by
  have hsave := touchesOnly_save w w.timer.cancel.2
  unfold saveAtOnce
  simp only
  split <;> exact hsave.trans ((touchesOnly_say _ _).mono (by decide))

/-! ### Actions -/

/-- Every action leaves alone what it does not touch. -/
theorem touchesOnly_act (w : Workspace γ) (a : Action γ) : TouchesOnly a.touches w (w.act a) := by
  cases a with
  | editActive => exact touchesOnly_select w _ _
  | edit f => exact touchesOnly_select w _ _
  | commitAndStep => exact touchesOnly_commitAndStep w
  | dropEdit => exact touchesOnly_select w _ _
  | step d extend => exact touchesOnly_step w d extend
  | chooseAll => exact touchesOnly_select w _ _
  | press p shift =>
    exact (touchesOnly_commit w).trans ((touchesOnly_select _ _ _).mono (by decide))
  | drag p => exact touchesOnly_select w _ _
  | release => exact touchesOnly_select w _ _
  | clearRegion => exact touchesOnly_clearRegion w
  | copy => exact touchesOnly_copy w
  | cut => exact touchesOnly_cut w
  | paste => exact touchesOnly_paste w
  | undo => exact touchesOnly_travel w _ _ _
  | redo => exact touchesOnly_travel w _ _ _
  | saveAtOnce => exact touchesOnly_saveAtOnce w
  | closePrompt => exact touchesOnly_closePrompt w
  | confirm => exact touchesOnly_confirm w
  | exportTable path => exact touchesOnly_exportTable w path
  | importTable path => exact touchesOnly_importTable w path
  | tick now => exact touchesOnly_tick w now
  | resize rows cols => exact touchesOnly_resize w rows cols
  | stop => exact touchesOnly_stop w
  | _ =>
    -- the size, prompts and messages are set and nothing else
    refine ⟨rfl, rfl, rfl, fun part hpart => ?_, id⟩
    cases part <;> first | rfl | exact ⟨rfl, rfl⟩ | exact absurd (by simp [Action.touches]) hpart

theorem sheetId_act (w : Workspace γ) (a : Action γ) : (w.act a).sheetId = w.sheetId :=
  (touchesOnly_act w a).sheetId

/-! ### Runs -/

theorem sheetId_run (w : Workspace γ) (as : List (Action γ)) : (w.run as).sheetId = w.sheetId := by
  induction as generalizing w with
  | nil => rfl
  | cons a as ih => exact (ih (w.act a)).trans (sheetId_act w a)

theorem savesOnExit_run (w : Workspace γ) (as : List (Action γ)) :
    (w.run as).savesOnExit = w.savesOnExit := by
  induction as generalizing w with
  | nil => rfl
  | cons a as ih => exact (ih (w.act a)).trans (touchesOnly_act w a).savesOnExit

/-- Whatever happens, a program that has stopped does not go on. -/
theorem stopped_live (hs : List (Happening γ)) (h : w.stopped = true) : (w.live hs).stopped = true := by
  induction hs generalizing w with
  | nil => exact h
  | cons e hs ih =>
    refine ih (happen_preserves (P := fun v => v.stopped = true) e ?_ ?_ h)
    · intro rows cols _
      exact (touchesOnly_resize w rows cols).stopped h
    · intro v a _ _ hv
      exact (touchesOnly_act v a).stopped hv

end Archives

end Touches

end Workspace

end Spreadsheet
