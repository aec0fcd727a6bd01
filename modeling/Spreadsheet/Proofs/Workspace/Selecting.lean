import Spreadsheet.Proofs.Selection.Activity
import Spreadsheet.Proofs.Workspace.Frame

/-!
# Spreadsheet.Proofs.Workspace.Selecting — what becomes of the selection

`selectionAfter` says what every action does to the selection, and `modeAfter` what it does to what
lies over the grid, without what the action does to the cells.  `happen_selection` says the same of
everything that happens: proofs about selecting, editing and dragging start from it.
-/

namespace Spreadsheet

namespace Workspace

variable {γ : Type}

section Defs

variable (w : Workspace γ)

/-- The range that a paste covers, if there is something to paste and a place for it. -/
def pasted? : Option Range :=
  match w.clipboard.read with
  | .ok text => (Interchange.paste text w.selection.active w.grid w.dims).1
  | .error _ => none

/-- An import starts the selection anew, if it works. -/
def selectionAfterImport (path : String) : Selection :=
  match TableFile.read w.files path with
  | .ok _ => Selection.start
  | .error _ => w.selection

/-- The selection after a step through the history, if there is one. -/
def selectionAfterTravel (step : Option Grid × History Grid) : Selection :=
  if step.1.isSome then w.selection.confine w.dims else w.selection

/-- The selection after an action. -/
def selectionAfter : Action γ → Selection
  | .editActive => w.selection.startEdit (w.grid.textAt w.selection.active)
  | .edit f => w.selection.edit f
  | .commitAndStep =>
    if w.selection.isEditing then w.selection.takeEdit.2.step .down false w.dims else w.selection
  | .dropEdit => w.selection.dropEdit
  | .step d extend => w.selection.step d extend w.dims
  | .chooseAll => w.selection.chooseAll w.dims
  | .press p shift => w.selection.takeEdit.2.press (w.dims.nearest p) shift
  | .drag p => w.selection.drag (w.dims.nearest p)
  | .release => w.selection.release
  | .paste => (w.pasted?.map w.selection.choose).getD w.selection
  | .undo => w.selectionAfterTravel (w.history.undo w.grid)
  | .redo => w.selectionAfterTravel w.history.redo
  | .confirm =>
    match w.mode, w.promptPath.isEmpty with
    | .importPrompt, false => w.selectionAfterImport w.promptPath
    | _, _ => w.selection
  | .importTable path => w.selectionAfterImport path
  | _ => w.selection

/-- What lies over the grid after an action. -/
def modeAfter : Action γ → Mode
  | .askExport => .exportPrompt
  | .askImport => .importPrompt
  | .showHelp => .help
  | .leaveHelp | .closePrompt | .confirm => .normal
  | _ => w.mode

end Defs

variable {w : Workspace γ}

/-! ### One operation after the other -/

theorem commit_selection (w : Workspace γ) :
    w.commit.2.selection = w.selection.takeEdit.2 ∧ w.commit.2.dims = w.dims := by
  cases he : w.selection.entry? with
  | none =>
    rw [commit_of_none he, Selection.takeEdit_of_none he]
    exact ⟨rfl, rfl⟩
  | some entry =>
    rw [commit_of_some he, Selection.takeEdit_of_some he]
    exact ⟨change_selection _ _, change_dims _ _⟩

theorem commit_fst (w : Workspace γ) : w.commit.1 = w.selection.isEditing := by
  unfold Selection.isEditing
  cases he : w.selection.entry? with
  | none => rw [commit_of_none he, Option.isSome_none]
  | some entry => rw [commit_of_some he, Option.isSome_some]

theorem commitAndStep_selection (w : Workspace γ) :
    w.commitAndStep.selection = w.selectionAfter .commitAndStep := by
  obtain ⟨hs, hd⟩ := commit_selection w
  have hedit := commit_fst w
  unfold commitAndStep selectionAfter
  cases hc : w.commit with
  | mk edited v =>
    rw [hc] at hs hd hedit
    cases edited with
    | true =>
      rw [← hedit, if_pos rfl]
      simp only at hs hd ⊢
      rw [← hs, ← hd]
      rfl
    | false =>
      have htake : w.selection.takeEdit.2 = w.selection := by
        rw [Selection.takeEdit_of_none]
        simpa [Selection.isEditing] using hedit.symm
      rw [← hedit, if_neg (by simp)]
      exact hs.trans htake

theorem press_selection (w : Workspace γ) (p : Position) (shift : Bool) :
    (w.press p shift).selection = w.selection.takeEdit.2.press (w.dims.nearest p) shift := by
  obtain ⟨hs, hd⟩ := commit_selection w
  simp only [press, hs, hd]

theorem paste_selection (w : Workspace γ) :
    w.paste.2.selection = (w.pasted?.map w.selection.choose).getD w.selection := by
  unfold pasted?
  cases hr : w.clipboard.read with
  | error e => exact (paste_of_error w hr).selection
  | ok text => exact (paste_same w hr).selection

theorem travel_selection (w : Workspace γ) (step : Option Grid × History Grid)
    (done nothing : String) :
    (w.travel step done nothing).selection = w.selectionAfterTravel step := by
  unfold travel selectionAfterTravel
  split <;> rfl

theorem importTable_selection (w : Workspace γ) (path : String) :
    (w.importTable path).2.selection = w.selectionAfterImport path := by
  unfold importTable selectionAfterImport
  cases TableFile.read w.files path with
  | ok t =>
    simp only [adopt_eq]
    rfl
  | error e => rfl

theorem confirm_selection (w : Workspace γ) :
    w.confirm.selection = w.selectionAfter .confirm := by
  rw [confirm_eq]
  show w.transfer.selection = _
  unfold transfer selectionAfter
  cases hm : w.mode with
  | exportPrompt => exact (touchesOnly_exportTable w _).same .selection (by decide)
  | importPrompt =>
    cases hp : w.promptPath.isEmpty with
    | true => simp only [if_true]
    | false => simpa using importTable_selection w _
  | _ => rfl

/-! ### What the user is doing -/

theorem import_goesOn (w : Workspace γ) (path : String) :
    w.selection.activity.GoesOn (w.selectionAfterImport path).activity := by
  unfold selectionAfterImport
  split
  · exact .inr rfl
  · exact .inl rfl

theorem travel_goesOn (w : Workspace γ) (step : Option Grid × History Grid) :
    w.selection.activity.GoesOn (w.selectionAfterTravel step).activity := by
  unfold selectionAfterTravel
  split <;> exact .inl rfl

/-- An edit begins with `editActive` and a drag with a plain press, and `edit` changes the text of an
edit; everything else lets go on what the user is doing or puts an end to it. -/
theorem activity_after (w : Workspace γ) (a : Action γ) :
    w.selection.activity.GoesOn (w.selectionAfter a).activity ∨
      a = .editActive ∨ (∃ f, a = .edit f) ∨
      ∃ p, a = .press p false ∧ (w.selectionAfter a).activity = .dragging (w.dims.nearest p) := by
  -- all actions but three let go on what the user is doing or put an end to it
  cases a with
  | editActive => exact .inr (.inl rfl)
  | edit f => exact .inr (.inr (.inl ⟨f, rfl⟩))
  | press p shift =>
    cases shift with
    | true => exact .inl Selection.takeEdit_goesOn
    | false => exact .inr (.inr (.inr ⟨p, rfl, rfl⟩))
  | commitAndStep =>
    refine .inl ?_
    simp only [selectionAfter]
    split
    · exact Selection.takeEdit_goesOn
    · exact .inl rfl
  | dropEdit => exact .inl Selection.dropEdit_goesOn
  | drag p => exact .inl (.inl (Selection.drag_activity _))
  | release => exact .inl Selection.release_goesOn
  | paste =>
    refine .inl (.inl ?_)
    unfold selectionAfter
    cases w.pasted? <;> rfl
  | undo => exact .inl (travel_goesOn w _)
  | redo => exact .inl (travel_goesOn w _)
  | confirm =>
    refine .inl ?_
    simp only [selectionAfter]
    split
    · exact import_goesOn w _
    · exact .inl rfl
  | importTable path => exact .inl (import_goesOn w path)
  | _ => exact .inl (.inl rfl)

variable [Archive γ]

/-! ### Every action -/

theorem act_selection (w : Workspace γ) (a : Action γ) :
    (w.act a).selection = w.selectionAfter a := by
  by_cases htouches : Part.selection ∈ a.touches
  · cases a with
    | commitAndStep => exact commitAndStep_selection w
    | press p shift => exact press_selection w p shift
    | paste => exact paste_selection w
    | undo => exact travel_selection w _ _ _
    | redo => exact travel_selection w _ _ _
    | confirm => exact confirm_selection w
    | importTable path => exact importTable_selection w path
    | _ => first | rfl | simp [Action.touches] at htouches
  · rw [(touchesOnly_act w a).same .selection htouches]
    cases a <;> first | rfl | simp [Action.touches] at htouches

theorem act_mode (w : Workspace γ) (a : Action γ) : (w.act a).mode = w.modeAfter a := by
  by_cases htouches : Part.mode ∈ a.touches
  · cases a <;> first | rfl | simp [Action.touches] at htouches
  · rw [(touchesOnly_act w a).same .mode htouches]
    cases a <;> first | rfl | simp [Action.touches] at htouches

/-- A cleared message makes no difference. -/
theorem selectionAfter_clearMessage (w : Workspace γ) (a : Action γ) :
    (w.act .clearMessage).selectionAfter a = w.selectionAfter a := by
  cases a with
  | confirm =>
    -- part by part: `rfl` for the whole would evaluate the path in the prompt
    have hmode : (w.act .clearMessage).mode = w.mode := rfl
    have hpath : (w.act .clearMessage).promptPath = w.promptPath := rfl
    have hselection : (w.act .clearMessage).selection = w.selection := rfl
    have himport (path : String) :
        (w.act .clearMessage).selectionAfterImport path = w.selectionAfterImport path := rfl
    simp only [selectionAfter, hmode, hpath, hselection, himport]
  | _ => rfl

/-- What happens does nothing to the selection and the mode, or what an action does to them. -/
theorem happen_selection (w : Workspace γ) (h : Happening γ) :
    (w.happen h).selection = w.selection ∧ (w.happen h).mode = w.mode ∧
        (∀ e width height, h = .pointer e width height → w.pointed? e width height = none) ∨
      ∃ a, ComesTo w h a ∧ (w.happen h).selection = w.selectionAfter a ∧
        (w.happen h).mode = w.modeAfter a := by
  rcases happen_cases w h with ⟨heq, hnone⟩ | ⟨a, hcomes, heq | ⟨-, heq⟩⟩
  · rw [heq]
    exact .inl ⟨rfl, rfl, hnone⟩
  · rw [heq]
    exact .inr ⟨a, hcomes, act_selection w a, act_mode w a⟩
  · rw [heq]
    have hmode : (w.act .clearMessage).modeAfter a = w.modeAfter a := by cases a <;> rfl
    exact .inr ⟨a, hcomes, (act_selection _ a).trans (selectionAfter_clearMessage w a),
      (act_mode _ a).trans hmode⟩

/-- The mouse is used at a point of a screen of 80 columns and 24 lines. -/
def mouseAt (action : PointerAction) (x y : Nat) : Happening γ :=
  .pointer ⟨action, x, y, Modifiers.none⟩ 80 24

end Workspace

end Spreadsheet
