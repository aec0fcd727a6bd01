import Spreadsheet.Proofs.Workspace.Saving

/-!
# Spreadsheet.Proofs.Workspace.Leaving — what is kept of a sheet when its workspace is left

A workspace that saves on exit makes the save that is pending.  A save that was refused is not
pending any more, so leaving does not make it again: the refusal stands until something is changed
or saved.  `refusalStands` follows it through a run, and a sheet that was changed in the run is kept
when the workspace is left exactly if no refusal stands or it is kept already.
-/

namespace Spreadsheet

namespace Workspace

variable {γ : Type} {w : Workspace γ}

section Saves

variable [Archive γ]

/-! ### Refusals that stand -/

/-- Whether the last save of a run was refused and nothing was changed after it.  A change starts
the timer. -/
def refusalStands : Bool → Workspace γ → List (Action γ) → Bool
  | stands, _, [] => stands
  | stands, w, a :: as =>
    refusalStands (if saves w a then isRefused w else stands && !(w.act a).timer.isRunning)
      (w.act a) as

variable {kept : Kept γ} {start : Workspace γ} {last : Option Document}

/-- A save counts as failed exactly while a refusal stands. -/
theorem failed_iff_act (h : Honest kept start last w) (a : Action γ) {stands : Bool}
    (hstands : (∃ reason, w.saveState = .failed reason) ↔ stands = true) :
    (∃ reason, (w.act a).saveState = .failed reason) ↔
      (if saves w a then isRefused w else stands && !(w.act a).timer.isRunning) = true := by
  rcases act_saving w a with ⟨hsaves, timer, message, -, he⟩ |
    ⟨hsaves, ⟨hs, ht⟩ | ⟨⟨hs, ht⟩, -⟩⟩
  · have hs : (w.act a).saveState = w.saveOutcome := by rw [he]; rfl
    rw [hsaves, if_pos rfl, hs]
    cases hr : isRefused w with
    | true => exact iff_of_true (saveOutcome_of_refused hr) rfl
    | false =>
      rw [saveOutcome_of_accepted hr]
      exact iff_of_false (by rintro ⟨_, ⟨⟩⟩) Bool.false_ne_true
  · rw [hsaves, hs, ht]
    exact iff_of_false (by rintro ⟨_, ⟨⟩⟩) (by simp)
  · rw [hsaves, hs, ht, hstands]
    cases hb : stands with
    | false => rfl
    | true =>
      -- a refused save has stopped the timer
      obtain ⟨reason, hreason⟩ := hstands.2 hb
      have hidle : ¬ w.timer.isRunning = true := fun hrun => by
        rw [← h.pending, hreason] at hrun
        cases hrun
      simp [hidle]

theorem failed_iff_run (h : Honest kept start last w) (hlaw : KeepsSaves kept) (hsheet : OnSheet w)
    {as : List (Action γ)} (hfits : FitsAlong w as)
    (halone : Run.Along Workspace.act (NoOtherWriter kept) w as) {stands : Bool}
    (hstands : (∃ reason, w.saveState = .failed reason) ↔ stands = true) :
    (∃ reason, (w.run as).saveState = .failed reason) ↔ refusalStands stands w as = true := by
  induction as generalizing w last stands with
  | nil => exact hstands
  | cons a as ih =>
    exact ih (h.act hlaw hsheet a halone.1) (hsheet.act hfits.1 a).1 hfits.2 halone.2
      (failed_iff_act h a hstands)

/-! ### Changes of the sheet -/

/-- Some action of a run changes the cells or the size of the sheet. -/
def ChangesSheet (w : Workspace γ) (as : List (Action γ)) : Prop :=
  ∃ before a after, as = before ++ a :: after ∧
    (((w.run before).act a).grid ≠ (w.run before).grid ∨
      ((w.run before).act a).dims ≠ (w.run before).dims)

/-- What leaves a sheet clean has found it clean and changes nothing of it. -/
theorem clean_of_act {a : Action γ} (h : (w.act a).saveState = .clean) :
    w.saveState = .clean ∧ (w.act a).grid = w.grid ∧ (w.act a).dims = w.dims := by
  rcases act_saving w a with ⟨-, timer, message, -, he⟩ | ⟨-, ⟨hs, -⟩ | ⟨⟨hs, -⟩, hsheet⟩⟩
  · have hs : (w.act a).saveState = w.saveOutcome := by rw [he]; rfl
    rw [hs] at h
    cases hr : isRefused w with
    | true =>
      obtain ⟨reason, hreason⟩ := saveOutcome_of_refused hr
      rw [hreason] at h
      cases h
    | false =>
      rw [saveOutcome_of_accepted hr] at h
      cases h
  · rw [hs] at h
    cases h
  · exact ⟨hs ▸ h, hsheet⟩

theorem clean_of_run {as : List (Action γ)} (h : (w.run as).saveState = .clean) :
    w.saveState = .clean := by
  induction as generalizing w with
  | nil => exact h
  | cons a as ih => exact (clean_of_act (ih h)).1

/-- A sheet that was changed never counts as clean again. -/
theorem not_clean_of_changesSheet {as : List (Action γ)} (hchanged : ChangesSheet w as) :
    (w.run as).saveState ≠ .clean := by
  obtain ⟨before, a, after, rfl, hdiff⟩ := hchanged
  intro hclean
  have hrun : w.run (before ++ a :: after) = ((w.run before).act a).run after := List.foldl_append
  rw [hrun] at hclean
  obtain ⟨-, hg, hd⟩ := clean_of_act (clean_of_run hclean)
  exact hdiff.elim (· hg) (· hd)

/-! ### Leaving -/

/-- What the archive keeps has the cells and the size of the sheet. -/
def IsKept (kept : Kept γ) (w : Workspace γ) : Prop :=
  ∃ d, kept w.archive w.files w.sheetId = some d ∧
    d.grid = w.grid ∧ d.rows = w.dims.rows ∧ d.cols = w.dims.cols

theorem close_of_pending (he : w.savesOnExit = true) (ht : w.timer.isRunning = true) :
    w.close = save { w with timer := w.timer.cancel.2 } := by
  unfold close SaveTimer.cancel
  simp only [he, ht, Bool.and_self, if_true]

theorem close_of_idle (ht : w.timer.isRunning = false) :
    w.close = { w with timer := w.timer.cancel.2 } := by
  unfold close SaveTimer.cancel
  simp only [ht, Bool.false_and, Bool.false_eq_true, if_false]

theorem isKept_save (hlaw : KeepsSaves kept) (hsheet : OnSheet w) (h : w.isRefused = false)
    (timer : SaveTimer) : IsKept kept (save { w with timer }) :=
  ⟨w.document, hlaw w.archive w.files w.sheetId w.document hsheet.storable_document
    (accepted_of_saveOutcome (saveOutcome_of_accepted h)), rfl, rfl, rfl⟩

/-- A sheet that was changed in a run is kept when the workspace is left, saves on exit being on and
accepted, exactly if no refusal of a save stands or it is kept already. -/
theorem isKept_close_iff (kept : Kept γ) (hlaw : KeepsSaves kept) {o : Options}
    (hexit : o.savesOnExit = true) {archive : γ} {files : FileSystem}
    (hstart : WordsStart o archive files) (hopen : (Workspace.open o archive files).stopped = false)
    {as : List (Action γ)} (hfits : FitsAlong (Workspace.open o archive files) as)
    (halone : Run.Along act (NoOtherWriter kept) (Workspace.open o archive files) as)
    (hchanged : ChangesSheet (Workspace.open o archive files) as)
    (haccepted : ((Workspace.open o archive files).run as).isRefused = false) :
    let start := Workspace.open o archive files
    let w := start.run as
    IsKept kept w.close ↔ refusalStands false start as = false ∨ IsKept kept w := by
  intro start w
  have hsheet : OnSheet start := (hstart.soundStart hopen).onSheet
  have hhonest : Honest kept start none start := honest_open kept o archive files
  have h : Honest kept start (lastAccepted none start as) w := hhonest.run hlaw hsheet hfits halone
  have hfresh : start.saveState = .clean ∧ start.savesOnExit = true := by
    obtain ⟨grid, dims, message, stopped, he⟩ := open_eq o archive files
    rw [show start = _ from he]
    exact ⟨rfl, hexit⟩
  have hfailed : (∃ reason, w.saveState = .failed reason) ↔ refusalStands false start as = true :=
    failed_iff_run hhonest hlaw hsheet hfits halone (by simp [hfresh.1])
  have hw : w.savesOnExit = true := (savesOnExit_run start as).trans hfresh.2
  have hidle (hne : w.saveState ≠ .pending) : IsKept kept w.close ↔ IsKept kept w := by
    rw [close_of_idle (eq_false_of_ne_true fun ht => hne (h.pending.2 ht))]
    rfl
  -- what leaving does is told by the state of saving
  cases hs : w.saveState with
  | clean => exact absurd hs (not_clean_of_changesSheet hchanged)
  | pending =>
    have hstands : refusalStands false start as = false := by
      rw [← Bool.not_eq_true, ← hfailed, hs]
      rintro ⟨_, ⟨⟩⟩
    refine iff_of_true ?_ (.inl hstands)
    -- the save that is pending is made
    rw [close_of_pending hw (h.pending.1 hs)]
    exact isKept_save hlaw (hsheet.run hfits) haccepted w.timer.cancel.2
  | saved =>
    have hkept : IsKept kept w := ⟨w.document, (h.saved hs).2, rfl, rfl, rfl⟩
    exact iff_of_true ((hidle (by rw [hs]; rintro ⟨⟩)).2 hkept) (.inr hkept)
  | failed reason =>
    -- no save is made, so what is kept is what was kept before
    rw [hidle (by rw [hs]; rintro ⟨⟩), hfailed.1 ⟨reason, hs⟩]
    exact (or_iff_right (by simp)).symm

end Saves

/-! ### A save that is refused before leaving -/

/-- The options of a small sheet that is saved on exit. -/
def exitingSheet : Options := { smallSheet with savesOnExit := true }

/-- An edit whose save is refused; then the archive accepts saves again. -/
def refusedRun : List (Action MemoryArchive) :=
  [ .editActive, .edit (·.insert 'x'), .commitAndStep,
    .outside { MemoryArchive.empty with savesRefused := some "full" } .empty .blank 500,
    .tick 2000,
    .outside MemoryArchive.empty .empty .blank 3000 ]

theorem changesSheet_refusedRun (as : List (Action MemoryArchive)) :
    ChangesSheet (Workspace.open exitingSheet MemoryArchive.empty .empty) (refusedRun ++ as) :=
  ⟨[.editActive, .edit (·.insert 'x')], .commitAndStep, _, rfl, .inl (by decide +kernel)⟩

theorem along_refusedRun :
    Run.Along act (NoOtherWriter keptInMemory)
      (Workspace.open exitingSheet MemoryArchive.empty .empty) refusedRun := by
  have houtside {v : Workspace MemoryArchive} {archive : MemoryArchive} {clock : Nat}
      (h : archive.get? v.sheetId = v.archive.get? v.sheetId) :
      NoOtherWriter keptInMemory v (.outside archive .empty .blank clock) := h
  exact ⟨trivial, trivial, trivial, houtside (by decide +kernel), trivial,
    houtside (by decide +kernel), trivial⟩

/-- With a new row after the refusal everything is kept, and so is an edit in a directory. -/
theorem isKept_close_refusedRun_appendRow :
    let start := Workspace.open exitingSheet MemoryArchive.empty .empty
    let as := refusedRun ++ [.appendRow]
    let inDirectory := Workspace.open exitingSheet grids .empty
    let edit : List (Action DirectoryArchive) := storingRun.take 3
    (KeepsSaves keptInMemory ∧ KeepsSaves keptInDirectory) ∧ exitingSheet.savesOnExit = true ∧
      Run.Along act (NoOtherWriter keptInMemory) start as ∧
      (ChangesSheet start as ∧ ChangesSheet inDirectory edit) ∧
      ((start.run as).isRefused = false ∧ (inDirectory.run edit).isRefused = false) ∧
      IsKept keptInMemory (start.run as).close ∧
      IsKept keptInDirectory (inDirectory.run edit).close := by
  intro start as inDirectory edit
  have hmemory : WordsStart exitingSheet MemoryArchive.empty .empty :=
    ⟨⟨by decide, by decide⟩, fun d hd => by cases hd⟩
  have hdirectory : WordsStart exitingSheet grids .empty :=
    wordsStart_directory ⟨by decide, by decide⟩ grids .empty
  have hfits : FitsAlong start as := fitsAlong_of_empty (by decide +kernel)
  have hfits' : FitsAlong inDirectory edit := fitsAlong_of_empty (by decide +kernel)
  have halone : Run.Along act (NoOtherWriter keptInMemory) start as :=
    Run.along_append.2 ⟨along_refusedRun, trivial, trivial⟩
  have halone' : Run.Along act (NoOtherWriter keptInDirectory) inDirectory edit :=
    ⟨trivial, trivial, trivial, trivial⟩
  have haccepted : (start.run as).isRefused = false := by decide +kernel
  have haccepted' : (inDirectory.run edit).isRefused = false := by decide +kernel
  have hstands : refusalStands false start as = false := by decide +kernel
  have hstands' : refusalStands false inDirectory edit = false := by decide +kernel
  have hchanged : ChangesSheet start as := changesSheet_refusedRun _
  have hchanged' : ChangesSheet inDirectory edit :=
    ⟨[.editActive, .edit (·.insert 'x')], .commitAndStep, [], rfl, .inl (by decide +kernel)⟩
  have hkept : IsKept keptInMemory (start.run as).close :=
    (isKept_close_iff keptInMemory keepsSaves_memory rfl hmemory rfl hfits halone hchanged
      haccepted).2 (.inl hstands)
  have hkept' : IsKept keptInDirectory (inDirectory.run edit).close :=
    (isKept_close_iff keptInDirectory keepsSaves_directory rfl hdirectory (by decide +kernel) hfits'
      halone' hchanged' haccepted').2 (.inl hstands')
  exact ⟨⟨keepsSaves_memory, keepsSaves_directory⟩, rfl, halone, ⟨hchanged, hchanged'⟩,
    ⟨haccepted, haccepted'⟩, hkept, hkept'⟩

/-- With nothing after the refusal, the edit is lost: the archive accepts saves and gets none. -/
theorem not_isKept_close_refusedRun :
    let start := Workspace.open exitingSheet MemoryArchive.empty .empty
    let w := start.run refusedRun
    KeepsSaves keptInMemory ∧ exitingSheet.savesOnExit = true ∧
      Run.Along act (NoOtherWriter keptInMemory) start refusedRun ∧ ChangesSheet start refusedRun ∧
      w.isRefused = false ∧ ¬ IsKept keptInMemory w.close := by
  intro start w
  refine ⟨keepsSaves_memory, rfl, along_refusedRun, changesSheet_refusedRun [], by decide +kernel,
    ?_⟩
  rintro ⟨d, hd, -⟩
  have hnone : keptInMemory w.close.archive w.close.files w.close.sheetId = none := by
    decide +kernel
  rw [hnone] at hd
  cases hd

end Workspace

end Spreadsheet
