import Mathlib.Tactic.SplitIfs
import Spreadsheet.Proofs.Files.Importing
import Spreadsheet.Proofs.Workspace.Saving

/-!
# Spreadsheet.Proofs.Workspace.Failing — what fails leaves the sheet as it was

An action can fail where it calls something outside the workspace: the files, the clipboard or the
archive.  `fault?` tells the error of that call, and `afterFault` the little that changes then.  It
is never the sheet: no sequence of failures touches its cells, its size, the selection, the window
or the history.
-/

namespace Spreadsheet

namespace Workspace

variable {γ : Type}

/-! ### What fails and what is left of it -/

section Defs

variable [Archive γ] (w : Workspace γ)

/-- The wording of the error of a call, if it fails. -/
def errorOf {ε α : Type} (wording : ε → String) : Except ε α → Option String
  | .ok _ => none
  | .error e => some (wording e)

/-- Why a file cannot be imported, if it cannot. -/
def importFault? (path : String) : Option String :=
  errorOf ImportFault.message (TableFile.read w.files path)

/-- Why the sheet cannot be exported to a file, if it cannot. -/
def exportFault? (path : String) : Option String :=
  errorOf FileError.message (TableFile.write w.files path w.grid w.dims)

/-- Why the archive refuses the sheet, if it does. -/
def saveFault? : Option String :=
  errorOf ArchiveError.message (Archive.save w.archive w.files w.sheetId w.document).1

/-- Why an action fails, if it does: the error of the call that it makes to the outside. -/
def fault? : Action γ → Option String
  | .importTable path => w.importFault? path
  | .exportTable path => w.exportFault? path
  | .confirm =>
    match w.mode with
    | .exportPrompt => w.exportFault? w.promptPath
    | .importPrompt => if w.promptPath.isEmpty then none else w.importFault? w.promptPath
    | _ => none
  | .copy | .cut =>
    errorOf ClipboardFault.message
      (w.clipboard.write (Interchange.blockText w.selection.region w.grid))
  | .paste => errorOf ClipboardFault.message w.clipboard.read
  | .saveAtOnce => w.saveFault?
  | .tick now => if w.timer.hasExpired now then w.saveFault? else none
  | _ => none

/-- The workspace after a save that was refused: no save is pending any more, and the archive and
the files are as the refusal has left them. -/
def afterRefusal (reason : String) : Workspace γ :=
  let (_, archive, files) := Archive.save w.archive w.files w.sheetId w.document
  { w with archive, files, saveState := .failed reason, timer := { w.timer with deadline := none } }

/-- The workspace after an action that failed. -/
def afterFault (a : Action γ) (reason : String) : Workspace γ :=
  match a with
  | .importTable _ => w.say ("Import failed: " ++ reason)
  | .exportTable _ => w.say ("Export failed: " ++ reason)
  | .confirm =>
    let what := if w.mode = .exportPrompt then "Export failed: " else "Import failed: "
    { w with message := some (what ++ reason), mode := .normal, fileName := TextField.empty }
  | .copy | .cut => w.say ("Copy failed: " ++ reason)
  | .paste => w.say ("Paste failed: " ++ reason)
  | .saveAtOnce => (w.afterRefusal reason).say ("Save failed: " ++ reason)
  | .tick _ => w.afterRefusal reason
  | _ => w

end Defs

/-- The same sheet, selected and shown in the same way and with the same past. -/
structure Untouched (w w' : Workspace γ) : Prop where
  grid : w'.grid = w.grid
  dims : w'.dims = w.dims
  selection : w'.selection = w.selection
  topRow : w'.topRow = w.topRow
  leftCol : w'.leftCol = w.leftCol
  history : w'.history = w.history

variable {w w' w'' : Workspace γ} {reason : String}

theorem Untouched.refl (w : Workspace γ) : Untouched w w := by
  constructor <;> rfl

theorem Untouched.trans (h : Untouched w w') (h' : Untouched w' w'') : Untouched w w'' where
  grid := h'.grid.trans h.grid
  dims := h'.dims.trans h.dims
  selection := h'.selection.trans h.selection
  topRow := h'.topRow.trans h.topRow
  leftCol := h'.leftCol.trans h.leftCol
  history := h'.history.trans h.history

/-! ### Each operation that can fail -/

theorem errorOf_eq_some_iff {ε α : Type} {wording : ε → String} {x : Except ε α} :
    errorOf wording x = some reason ↔ ∃ e, x = .error e ∧ wording e = reason := by
  cases x <;> simp [errorOf]

theorem errorOf_eq_none_iff {ε α : Type} {wording : ε → String} {x : Except ε α} :
    errorOf wording x = none ↔ ∃ a, x = .ok a := by
  cases x <;> simp [errorOf]

theorem importTable_of_fault {path : String} (h : w.importFault? path = some reason) :
    w.importTable path = (false, w.say ("Import failed: " ++ reason)) := by
  obtain ⟨e, hread, rfl⟩ := errorOf_eq_some_iff.1 h
  unfold importTable
  rw [hread]

theorem exportTable_of_fault {path : String} (h : w.exportFault? path = some reason) :
    w.exportTable path = (false, w.say ("Export failed: " ++ reason)) := by
  obtain ⟨e, hwrite, rfl⟩ := errorOf_eq_some_iff.1 h
  unfold exportTable
  rw [hwrite]

section Archives

variable [Archive γ]

theorem copy_of_fault (h : w.fault? .copy = some reason) :
    w.copy = (false, w.say ("Copy failed: " ++ reason)) := by
  obtain ⟨e, hwrite, rfl⟩ := errorOf_eq_some_iff.1 h
  unfold copy
  rw [hwrite]

/-- Nothing is cleared if the copy fails. -/
theorem cut_of_fault (h : w.fault? .cut = some reason) :
    w.cut = (false, w.say ("Copy failed: " ++ reason)) := by
  unfold cut
  rw [copy_of_fault h]

theorem paste_of_fault (h : w.fault? .paste = some reason) :
    w.paste = (false, w.say ("Paste failed: " ++ reason)) := by
  obtain ⟨e, hread, rfl⟩ := errorOf_eq_some_iff.1 h
  unfold paste
  rw [hread]

/-- The timer does not matter to a save that is refused. -/
theorem save_of_fault (h : w.saveFault? = some reason) :
    save { w with timer := { w.timer with deadline := none } } = w.afterRefusal reason := by
  obtain ⟨e, hsave, rfl⟩ := errorOf_eq_some_iff.1 h
  unfold save afterRefusal document at *
  simp only [hsave]

theorem saveAtOnce_of_fault (h : w.saveFault? = some reason) :
    w.saveAtOnce = (w.afterRefusal reason).say ("Save failed: " ++ reason) := by
  unfold saveAtOnce SaveTimer.cancel
  simp only [save_of_fault h]
  rfl

theorem tick_of_fault {now : Nat} (hdue : w.timer.hasExpired now = true)
    (h : w.saveFault? = some reason) : w.tick now = (true, w.afterRefusal reason) := by
  unfold tick SaveTimer.fire
  rw [if_pos hdue]
  simp only [if_true, save_of_fault h]

/-- Whatever fails, the prompt is closed. -/
theorem confirm_of_fault (h : w.fault? .confirm = some reason) :
    w.confirm = w.afterFault .confirm reason := by
  unfold fault? at h
  unfold confirm afterFault
  cases hmode : w.mode with
  | exportPrompt =>
    rw [hmode] at h
    simp only [if_true, exportTable_of_fault h]
    rfl
  | importPrompt =>
    rw [hmode] at h
    simp only at h
    split_ifs at h with hpath
    simp only [reduceCtorEq, if_false, if_neg hpath, importTable_of_fault h]
    rfl
  | _ =>
    rw [hmode] at h
    cases h

/-! ### What fails -/

/-- An action that fails changes what `afterFault` says and nothing else. -/
theorem act_of_fault {a : Action γ} (h : w.fault? a = some reason) :
    w.act a = w.afterFault a reason := by
  -- what reaches for the files, the clipboard or the archive can fail, and nothing else
  cases a with
  | importTable path => exact congrArg Prod.snd (importTable_of_fault h)
  | exportTable path => exact congrArg Prod.snd (exportTable_of_fault h)
  | confirm => exact confirm_of_fault h
  | copy => exact congrArg Prod.snd (copy_of_fault h)
  | cut => exact congrArg Prod.snd (cut_of_fault h)
  | paste => exact congrArg Prod.snd (paste_of_fault h)
  | saveAtOnce => exact saveAtOnce_of_fault h
  | tick now =>
    cases hdue : w.timer.hasExpired now with
    | true =>
      rw [fault?, if_pos hdue] at h
      exact congrArg Prod.snd (tick_of_fault hdue h)
    | false =>
      rw [fault?, hdue] at h
      cases h
  | _ => cases h

theorem untouched_afterFault (w : Workspace γ) (a : Action γ) (reason : String) :
    Untouched w (w.afterFault a reason) := by
  cases a <;> constructor <;> rfl

theorem untouched_of_fault {a : Action γ} (h : w.fault? a ≠ none) : Untouched w (w.act a) := by
  obtain ⟨reason, hreason⟩ := Option.ne_none_iff_exists'.1 h
  rw [act_of_fault hreason]
  exact untouched_afterFault w a reason

/-- However many actions fail one after the other, the sheet is as before. -/
theorem untouched_run {as : List (Action γ)} (h : Run.Along act (fun v a => v.fault? a ≠ none) w as) :
    Untouched w (w.run as) :=
  h.invariant (fun _ _ hfault hv => hv.trans (untouched_of_fault hfault)) (.refl w)

/-! ### Operations that tell whether they worked -/

theorem importTable_fst (w : Workspace γ) (path : String) :
    (w.importTable path).1 = (w.fault? (.importTable path)).isNone := by
  cases hfault : w.fault? (.importTable path) with
  | some reason => rw [importTable_of_fault hfault, Option.isNone_some]
  | none =>
    obtain ⟨t, hread⟩ := errorOf_eq_none_iff.1 hfault
    unfold importTable
    rw [hread, Option.isNone_none]

theorem exportTable_fst (w : Workspace γ) (path : String) :
    (w.exportTable path).1 = (w.fault? (.exportTable path)).isNone := by
  cases hfault : w.fault? (.exportTable path) with
  | some reason => rw [exportTable_of_fault hfault, Option.isNone_some]
  | none =>
    obtain ⟨files, hwrite⟩ := errorOf_eq_none_iff.1 hfault
    unfold exportTable
    rw [hwrite, Option.isNone_none]

theorem copy_fst (w : Workspace γ) : w.copy.1 = (w.fault? .copy).isNone := by
  cases hfault : w.fault? .copy with
  | some reason => rw [copy_of_fault hfault, Option.isNone_some]
  | none =>
    obtain ⟨clipboard, hwrite⟩ := errorOf_eq_none_iff.1 hfault
    unfold copy
    rw [hwrite, Option.isNone_none]

/-- A cut works if its copy does. -/
theorem cut_fst (w : Workspace γ) : w.cut.1 = (w.fault? .cut).isNone := by
  show w.cut.1 = (w.fault? .copy).isNone
  rw [← copy_fst]
  unfold cut
  split <;> rename_i hcopy <;> rw [hcopy]

/-- Whatever fails, in whatever state, leaves the sheet, the selection, the window and the history
as they were, and so does one failure after the other.  An import fails exactly for the files that
are rejected, and operations that tell whether they worked tell the truth. -/
theorem failing_leaves_sheet (w : Workspace γ) :
    (∀ (a : Action γ) (reason : String), w.fault? a = some reason →
      w.act a = w.afterFault a reason ∧ Untouched w (w.act a)) ∧
    (∀ as : List (Action γ), Run.Along act (fun v a => v.fault? a ≠ none) w as →
      Untouched w (w.run as)) ∧
    (∀ path reason, w.fault? (.importTable path) = some reason ↔
      ∃ e, TableFile.Rejected w.files path e ∧ e.message = reason) ∧
    (∀ path, (w.importTable path).1 = (w.fault? (.importTable path)).isNone) ∧
    (∀ path, (w.exportTable path).1 = (w.fault? (.exportTable path)).isNone) ∧
    w.copy.1 = (w.fault? .copy).isNone ∧ w.cut.1 = (w.fault? .cut).isNone ∧
    (w.fault? .paste ≠ none → w.paste.1 = false) := by
  refine ⟨?_, ?_, ?_, importTable_fst w, exportTable_fst w, copy_fst w, cut_fst w, ?_⟩
  · intro a reason h
    exact ⟨act_of_fault h, untouched_of_fault (by simp [h])⟩
  · intro as h
    exact untouched_run h
  · intro path reason
    simp only [← TableFile.read_eq_error_iff]
    exact errorOf_eq_some_iff
  · intro h
    obtain ⟨reason, hreason⟩ := Option.ne_none_iff_exists'.1 h
    rw [paste_of_fault hreason]

end Archives

/-- Some files: a table whose records differ, one without data, and a directory. -/
def oddFiles : FileSystem :=
  ⟨[(["data.csv"], .file (.text "a,b\nc\n")), (["blank.csv"], .file (.text " \n")),
    (["notes"], .directory)]⟩

/-- A cell is filled and the change is taken back; then the archive is full, the clipboard is out of
order, and a file is to be imported. -/
def brokenRun : List (Action MemoryArchive) :=
  [ .editActive, .edit (·.insert 'x'), .commitAndStep, .undo,
    .outside { MemoryArchive.empty with savesRefused := some "full" } oddFiles
      ⟨none, some (.access "denied")⟩ 500,
    .askImport ]

/-- Everything that can fail fails: the prompt's file is ragged, others are of another kind, missing
or empty, a directory cannot be written to, and so on. -/
def failures : List (Action MemoryArchive) :=
  [ .confirm, .importTable "old.xls", .importTable "notes", .importTable "gone.csv",
    .importTable "blank.csv", .exportTable "notes", .copy, .cut, .paste, .tick 5000, .saveAtOnce ]

/-- With a save pending and a change that can be made again, all of this fails, and the change can
still be made again. -/
theorem failing_leaves_sheet_brokenRun :
    let w := (Workspace.open smallSheet MemoryArchive.empty .empty).run brokenRun
    w.timer.isRunning = true ∧ w.history.canRedo = true ∧
      w.fault? .confirm = some "line 2 has 1 fields, expected 2" ∧
      w.confirm = { w with
        message := some "Import failed: line 2 has 1 fields, expected 2"
        mode := .normal
        fileName := TextField.empty } ∧
      TableFile.Rejected w.files "data.csv" (.ragged 2 2 1) ∧
      w.fault? .paste ≠ none ∧ w.paste.1 = false ∧
      Run.Along act (fun v a => v.fault? a ≠ none) w failures ∧
      (w.run failures).saveState = .failed "full" ∧ (w.run failures).grid = w.grid ∧
      (w.run failures).history = w.history ∧ (w.run failures).redo.grid.get? ⟨0, 0⟩ = some "x" := by
  intro w
  obtain ⟨hact, hrun, himport, -, -, -, -, hpaste⟩ := failing_leaves_sheet w
  have hragged : w.fault? .confirm = some "line 2 has 1 fields, expected 2" := by decide +kernel
  have hpasteFault : w.fault? .paste ≠ none := by decide +kernel
  have hfailures : Run.Along act (fun v a => v.fault? a ≠ none) w failures := by decide +kernel
  have huntouched := hrun failures hfailures
  have hrejected : TableFile.Rejected w.files "data.csv" (.ragged 2 2 1) :=
    TableFile.read_eq_error_iff.1 (by rfl)
  refine ⟨by decide +kernel, by decide +kernel, hragged, (hact .confirm _ hragged).1, hrejected,
    hpasteFault, hpaste hpasteFault, hfailures, by decide +kernel, huntouched.grid,
    huntouched.history, by decide +kernel⟩

end Workspace

end Spreadsheet
