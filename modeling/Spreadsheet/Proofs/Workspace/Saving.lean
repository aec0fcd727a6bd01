import Spreadsheet.Proofs.Archive.Agreement
import Spreadsheet.Proofs.Archive.Loading
import Spreadsheet.Proofs.Run
import Spreadsheet.Proofs.Workspace.Addressing

/-!
# Spreadsheet.Proofs.Workspace.Saving — what the state of saving says

The state of saving is right in every reachable workspace, whatever saves fail: a save is pending
exactly while the timer runs, a sheet that counts as saved is what the archive keeps, and one that
counts as clean is as it was opened.  Of the archive only this is assumed: a document that can be
stored and whose save it accepts is kept (`KeepsSaves`), and nobody but the workspace writes the
sheet's document (`NoOtherWriter`).  Archives in memory and in a directory are such archives.
-/

namespace Spreadsheet

namespace Workspace

variable {γ : Type} {w v v' : Workspace γ}

/-! ### What is not saved -/

/-- Nothing has been saved on the way: a save has become pending, or saving, the cells and the size are
as they were. -/
def Unsaved (w v : Workspace γ) : Prop :=
  v.saveState = .pending ∧ v.timer.isRunning = true ∨
    (v.saveState = w.saveState ∧ v.timer = w.timer) ∧ v.grid = w.grid ∧ v.dims = w.dims

theorem Unsaved.refl (w : Workspace γ) : Unsaved w w := .inr ⟨⟨rfl, rfl⟩, rfl, rfl⟩

/-- What touches neither saving nor the sheet changes nothing. -/
theorem Unsaved.frame (h : Unsaved w v) (hs : v'.saveState = v.saveState) (ht : v'.timer = v.timer)
    (hg : v'.grid = v.grid) (hd : v'.dims = v.dims) : Unsaved w v' := by
  unfold Unsaved
  rw [hs, ht, hg, hd]
  exact h

theorem Unsaved.alike (h : Unsaved w v) (hsame : SameSheet v v') : Unsaved w v' :=
  h.frame hsame.saveState hsame.timer hsame.grid hsame.dims

theorem unsaved_change (w : Workspace γ) (g : Grid) : Unsaved w (w.change g).2 := by
  by_cases h : g = w.grid
  · rw [change_same h]
    exact .refl w
  · rw [change_new h]
    exact .inl ⟨rfl, rfl⟩

theorem unsaved_commit (w : Workspace γ) : Unsaved w w.commit.2 := by
  cases he : w.selection.entry? with
  | none =>
    rw [commit_of_none he]
    exact .refl w
  | some entry =>
    rw [commit_of_some he]
    exact unsaved_change { w with selection := { w.selection with activity := .idle } } _

theorem unsaved_paste (w : Workspace γ) : Unsaved w w.paste.2 := by
  cases hr : w.clipboard.read with
  | error e => exact (Unsaved.refl w).alike (paste_of_error w hr)
  | ok text =>
    have hsame := paste_same w hr
    exact (unsaved_change w _).frame hsame.saveState hsame.timer hsame.grid hsame.dims

theorem unsaved_cut (w : Workspace γ) : Unsaved w w.cut.2 := by
  have hsame := cut_same w
  split_ifs at hsame
  · exact (unsaved_change w _).alike hsame
  · exact (Unsaved.refl w).alike hsame

theorem unsaved_travel (w : Workspace γ) (step : Option Grid × History Grid)
    (done nothing : String) : Unsaved w (w.travel step done nothing) := by
  unfold travel
  split
  · exact .inl ⟨rfl, rfl⟩
  · exact .inr ⟨⟨rfl, rfl⟩, rfl, rfl⟩

theorem unsaved_importTable (w : Workspace γ) (path : String) :
    Unsaved w (w.importTable path).2 := by
  unfold importTable
  split
  · rw [adopt_eq]
    exact .inl ⟨rfl, rfl⟩
  · exact .inr ⟨⟨rfl, rfl⟩, rfl, rfl⟩

theorem unsaved_confirm (w : Workspace γ) : Unsaved w w.confirm := by
  rw [confirm_eq]
  suffices h : Unsaved w w.transfer from h.alike (sameSheet_closePrompt _)
  unfold transfer
  split
  · obtain ⟨files, message, he⟩ := exportTable_eq w w.promptPath
    rw [he]
    exact .inr ⟨⟨rfl, rfl⟩, rfl, rfl⟩
  · split_ifs
    · exact .refl w
    · exact unsaved_importTable w _
  · exact .refl w

/-- Whatever touches the cells or the size makes a save pending or makes one. -/
theorem saving_mem_touches {a : Action γ} (h : Part.saving ∉ a.touches) :
    Part.cells ∉ a.touches ∧ Part.size ∉ a.touches := by
  cases a <;> simp_all [Action.touches]

/-! ### What the state of saving should say -/

/-- What an archive keeps for a sheet, as a function of the archive and the files. -/
abbrev Kept (γ : Type) := γ → FileSystem → String → Option Document

/-- The state of saving is right: `start` is the workspace as it was opened, and `last` the document
that was accepted last. -/
structure Honest (kept : Kept γ) (start : Workspace γ) (last : Option Document) (w : Workspace γ) :
    Prop where
  pending : w.saveState = .pending ↔ w.timer.isRunning = true
  saved : w.saveState = .saved →
    last = some w.document ∧ kept w.archive w.files w.sheetId = some w.document
  clean : w.saveState = .clean → w.grid = start.grid ∧ w.dims = start.dims

variable {kept : Kept γ} {start : Workspace γ} {last : Option Document}

/-- While a save is pending, nothing else has to be said. -/
theorem honest_of_pending (hs : w.saveState = .pending) (ht : w.timer.isRunning = true) :
    Honest kept start last w where
  pending := by simp [hs, ht]
  saved hw := by simp [hs] at hw
  clean hw := by simp [hs] at hw

/-- What lies on the sheet can be stored. -/
theorem OnSheet.storable_document (h : OnSheet w) : w.document.Storable where
  ids e he := Dimensions.hasId_of_contains h.words (h.grid e he)
  rows := h.words.1
  cols := h.words.2

section Saves

variable [Archive γ]

/-! ### What is saved -/

/-- The state of saving after a save. -/
def saveOutcome (w : Workspace γ) : SaveState :=
  match (Archive.save w.archive w.files w.sheetId w.document).1 with
  | .ok () => .saved
  | .error e => .failed e.message

/-- Whether the archive refuses the sheet. -/
def isRefused (w : Workspace γ) : Bool :=
  match (Archive.save w.archive w.files w.sheetId w.document).1 with
  | .ok () => false
  | .error _ => true

theorem saveOutcome_of_accepted (h : w.isRefused = false) : w.saveOutcome = .saved := by
  unfold isRefused at h
  unfold saveOutcome
  split at h
  · rfl
  · cases h

theorem saveOutcome_of_refused (h : w.isRefused = true) :
    ∃ reason, w.saveOutcome = .failed reason := by
  unfold isRefused at h
  unfold saveOutcome
  split at h
  · cases h
  · exact ⟨_, rfl⟩

theorem accepted_of_saveOutcome (h : w.saveOutcome = .saved) :
    (Archive.save w.archive w.files w.sheetId w.document).1 = .ok () := by
  unfold saveOutcome at h
  split at h
  · assumption
  · cases h

/-- Whether an action hands the sheet to the archive. -/
def saves (w : Workspace γ) : Action γ → Bool
  | .tick now => w.timer.hasExpired now
  | .saveAtOnce => true
  | _ => false

/-- An action saves the sheet, after which no save is pending, or saves nothing. -/
theorem act_saving (w : Workspace γ) (a : Action γ) :
    (saves w a = true ∧ ∃ timer message, timer.isRunning = false ∧
        w.act a = { save { w with timer } with message }) ∨
      saves w a = false ∧ Unsaved w (w.act a) := by
  by_cases hsaving : Part.saving ∈ a.touches
  · cases a with
    | commitAndStep =>
      refine .inr ⟨rfl, ?_⟩
      show Unsaved w w.commitAndStep
      rcases commitAndStep_cases w with he | he <;> rw [he]
      · exact unsaved_commit w
      · exact (unsaved_commit w).frame rfl rfl rfl rfl
    | press p shift => exact .inr ⟨rfl, (unsaved_commit w).frame rfl rfl rfl rfl⟩
    | clearRegion => exact .inr ⟨rfl, (unsaved_change w _).alike (clearRegion_same w)⟩
    | cut => exact .inr ⟨rfl, unsaved_cut w⟩
    | paste => exact .inr ⟨rfl, unsaved_paste w⟩
    | undo => exact .inr ⟨rfl, unsaved_travel w _ _ _⟩
    | redo => exact .inr ⟨rfl, unsaved_travel w _ _ _⟩
    | appendRow => exact .inr ⟨rfl, .inl ⟨rfl, rfl⟩⟩
    | appendCol => exact .inr ⟨rfl, .inl ⟨rfl, rfl⟩⟩
    | saveAtOnce =>
      refine .inl ⟨rfl, w.timer.cancel.2, ?_⟩
      show ∃ message, _ ∧ w.saveAtOnce = _
      unfold saveAtOnce
      simp only
      split <;> exact ⟨_, rfl, rfl⟩
    | tick now =>
      show saves w (.tick now) = true ∧ (∃ timer message, _ ∧ (w.tick now).2 = _) ∨
        saves w (.tick now) = false ∧ Unsaved w (w.tick now).2
      unfold tick SaveTimer.fire
      cases hdue : w.timer.hasExpired now with
      | true => exact .inl ⟨hdue, { w.timer with deadline := none }, w.message, rfl, rfl⟩
      | false => exact .inr ⟨hdue, .refl w⟩
    | importTable path => exact .inr ⟨rfl, unsaved_importTable w path⟩
    | confirm => exact .inr ⟨rfl, unsaved_confirm w⟩
    | _ => simp [Action.touches] at hsaving
  · -- saving is left alone, and with it the cells and the size
    obtain ⟨hcells, hsize⟩ := saving_mem_touches hsaving
    have htouches := touchesOnly_act w a
    refine .inr ⟨?_, .inr ⟨htouches.same .saving hsaving, (htouches.same .cells hcells).1,
      htouches.same .size hsize⟩⟩
    cases a <;> first | rfl | simp [Action.touches] at hsaving

/-! ### Archives that keep what they accept -/

/-- A document that can be stored and whose save is accepted is the one kept afterwards. -/
def KeepsSaves (kept : Kept γ) : Prop :=
  ∀ (archive : γ) (files : FileSystem) (sheetId : String) (d : Document), d.Storable →
    (Archive.save archive files sheetId d).1 = .ok () →
      kept (Archive.save archive files sheetId d).2.1 (Archive.save archive files sheetId d).2.2 sheetId
        = some d

/-- An action that is no save, but changes the archive or the files, leaves what is kept for the
sheet as it is. -/
def NoOtherWriter (kept : Kept γ) (w : Workspace γ) (a : Action γ) : Prop :=
  match a with
  | .outside .. | .exportTable _ | .confirm =>
    kept (w.act a).archive (w.act a).files w.sheetId = kept w.archive w.files w.sheetId
  | _ => True

/-- The document that the archive accepted last, after an action. -/
def accepted (last : Option Document) (w : Workspace γ) (a : Action γ) : Option Document :=
  if saves w a then
    match (Archive.save w.archive w.files w.sheetId w.document).1 with
    | .ok () => some w.document
    | .error _ => last
  else last

/-- The document that the archive accepted last in a run. -/
def lastAccepted : Option Document → Workspace γ → List (Action γ) → Option Document
  | last, _, [] => last
  | last, w, a :: as => lastAccepted (accepted last w a) (w.act a) as

/-- A save is accepted or fails, and is not pending any more. -/
theorem honest_save (last : Option Document) (hlaw : KeepsSaves kept) (hsheet : OnSheet w)
    {timer : SaveTimer} (ht : timer.isRunning = false) (message : Option String) :
    Honest kept start
      (match (Archive.save w.archive w.files w.sheetId w.document).1 with
        | .ok () => some w.document
        | .error _ => last)
      { save { w with timer } with message } := by
  have hkept := hlaw w.archive w.files w.sheetId w.document hsheet.storable_document
  let v : Workspace γ := { save { w with timer } with message }
  have hstate : v.saveState = w.saveOutcome := rfl
  have hpending : v.saveState ≠ .pending → (v.saveState = .pending ↔ v.timer.isRunning = true) :=
    fun hne => iff_of_false hne (by rw [show v.timer = timer from rfl, ht]; exact Bool.false_ne_true)
  show Honest kept start _ v
  -- an accepted save is what is kept; a refused one leaves nothing to be said
  cases hr : (Archive.save w.archive w.files w.sheetId w.document).1 with
  | ok _ =>
    rw [saveOutcome, hr] at hstate
    refine ⟨hpending (by rw [hstate]; nofun), fun _ => ⟨rfl, hkept hr⟩, fun hclean => ?_⟩
    rw [hstate] at hclean
    cases hclean
  | error e =>
    rw [saveOutcome, hr] at hstate
    refine ⟨hpending (by rw [hstate]; nofun), fun hsaved => ?_, fun hclean => ?_⟩
    · rw [hstate] at hsaved
      cases hsaved
    · rw [hstate] at hclean
      cases hclean

/-- What is kept for the sheet changes by its saves only. -/
theorem kept_act {a : Action γ} (hsaves : saves w a = false) (halone : NoOtherWriter kept w a) :
    kept (w.act a).archive (w.act a).files w.sheetId = kept w.archive w.files w.sheetId := by
  by_cases hworld : Part.world ∈ a.touches
  · cases a with
    | saveAtOnce => cases hsaves
    | tick now =>
      show kept (w.tick now).2.archive (w.tick now).2.files w.sheetId = _
      unfold tick SaveTimer.fire
      rw [show w.timer.hasExpired now = false from hsaves]
      rfl
    | confirm => exact halone
    | exportTable path => exact halone
    | outside archive files clipboard clock => exact halone
    | _ => simp [Action.touches] at hworld
  · obtain ⟨harchive, hfiles⟩ := (touchesOnly_act w a).same .world hworld
    rw [harchive, hfiles]

/-! ### Runs -/

theorem Honest.act (h : Honest kept start last w) (hlaw : KeepsSaves kept) (hsheet : OnSheet w)
    (a : Action γ) (halone : NoOtherWriter kept w a) :
    Honest kept start (accepted last w a) (w.act a) := by
  unfold accepted
  rcases act_saving w a with ⟨hsaves, timer, message, ht, he⟩ | ⟨hsaves, hpending | hsame⟩
  · rw [hsaves, he]
    exact honest_save last hlaw hsheet ht message
  · rw [hsaves]
    exact honest_of_pending hpending.1 hpending.2
  · -- nothing was changed or saved, and nobody else has written the document
    obtain ⟨⟨hs, ht⟩, hg, hd⟩ := hsame
    have hdoc : (w.act a).document = w.document := by rw [document, document, hg, hd]
    have hk := kept_act hsaves halone
    rw [← sheetId_act w a] at hk
    rw [hsaves]
    refine ⟨?_, fun hw => ?_, fun hw => ?_⟩
    · rw [hs, ht]
      exact h.pending
    · rw [hdoc, hk, sheetId_act]
      exact h.saved (hs ▸ hw)
    · rw [hg, hd]
      exact h.clean (hs ▸ hw)

/-- Along a run every file is short enough for its characters to be counted. -/
abbrev FitsAlong (w : Workspace γ) (as : List (Action γ)) : Prop :=
  Run.Along Workspace.act (fun v _ => v.files.FitsMemory) w as

/-- Where there are no files, they are short enough. -/
theorem fitsAlong_of_empty {as : List (Action γ)}
    (h : Run.Along Workspace.act (fun v _ => v.files = .empty) w as) : FitsAlong w as :=
  h.mono fun _ _ hv => hv ▸ FileSystem.fitsMemory_empty

/-- Everything stays on the sheet throughout a run, if all files are short enough. -/
theorem OnSheet.run (h : OnSheet w) {as : List (Action γ)} (hfits : FitsAlong w as) :
    OnSheet (w.run as) :=
  Run.Along.invariant (I := OnSheet) (fun _ a hf hv => (hv.act hf a).1) hfits h

theorem Honest.run (h : Honest kept start last w) (hlaw : KeepsSaves kept) (hsheet : OnSheet w)
    {as : List (Action γ)} (hfits : FitsAlong w as)
    (halone : Run.Along Workspace.act (NoOtherWriter kept) w as) :
    Honest kept start (lastAccepted last w as) (w.run as) := by
  induction as generalizing w last with
  | nil => exact h
  | cons a as ih =>
    exact ih (h.act hlaw hsheet a halone.1) (hsheet.act hfits.1 a).1 hfits.2 halone.2

theorem honest_open (kept : Kept γ) (o : Options) (archive : γ) (files : FileSystem) :
    Honest kept (Workspace.open o archive files) none (Workspace.open o archive files) := by
  obtain ⟨grid, dims, message, stopped, he⟩ := open_eq o archive files
  rw [he]
  refine ⟨?_, ?_, fun _ => ⟨rfl, rfl⟩⟩ <;> simp [fresh, SaveTimer.idle, SaveTimer.isRunning]

/-- After every run a save is pending exactly while the timer runs; a sheet that counts as saved is
what the archive keeps, and one that counts as clean is as it was opened.  So a sheet that differs
from the document accepted last and from the one opened counts as neither. -/
theorem run_saveState (kept : Kept γ) (hlaw : KeepsSaves kept) {o : Options} {archive : γ}
    {files : FileSystem} (hstart : WordsStart o archive files)
    (hopen : (Workspace.open o archive files).stopped = false) {as : List (Action γ)}
    (hfits : FitsAlong (Workspace.open o archive files) as)
    (halone : Run.Along act (NoOtherWriter kept) (Workspace.open o archive files) as) :
    let start := Workspace.open o archive files
    let w := start.run as
    (w.saveState = .pending ↔ w.timer.isRunning = true) ∧
      (w.saveState = .saved →
        ∃ d, kept w.archive w.files o.sheetId = some d ∧
          d.grid = w.grid ∧ d.rows = w.dims.rows ∧ d.cols = w.dims.cols) ∧
      (w.saveState = .clean → w.grid = start.grid ∧ w.dims = start.dims) ∧
      ((∀ d, lastAccepted none start as = some d →
          d.grid ≠ w.grid ∨ d.rows ≠ w.dims.rows ∨ d.cols ≠ w.dims.cols) →
        w.grid ≠ start.grid ∨ w.dims ≠ start.dims →
        w.saveState = .pending ∨ ∃ reason, w.saveState = .failed reason) := by
  intro start w
  have hsheet : OnSheet start := (hstart.soundStart hopen).onSheet
  have h : Honest kept start (lastAccepted none start as) w :=
    (honest_open kept o archive files).run hlaw hsheet hfits halone
  have hid : w.sheetId = o.sheetId := (sheetId_run start as).trans (open_sheetId o archive files)
  refine ⟨h.pending, fun hs => ?_, h.clean, fun hlast hopened => ?_⟩
  · exact ⟨w.document, hid ▸ (h.saved hs).2, rfl, rfl, rfl⟩
  · -- the sheet differs from what was accepted last and from what was opened
    cases hs : w.saveState with
    | pending => exact .inl rfl
    | failed reason => exact .inr ⟨reason, rfl⟩
    | clean =>
      obtain ⟨hg, hd⟩ := h.clean hs
      exact absurd hopened (by simp [hg, hd])
    | saved =>
      have hne := hlast _ (h.saved hs).1
      exact absurd hne (by simp [document, Document.ofSheet])

end Saves

/-! ### Archives in memory and in a directory -/

/-- What an archive in memory keeps. -/
def keptInMemory : Kept MemoryArchive := fun archive _ sheetId => archive.get? sheetId

theorem keepsSaves_memory : KeepsSaves keptInMemory := by
  intro archive files sheetId d _ hok
  have hsave : Archive.save archive files sheetId d
      = ((archive.save sheetId d).1, (archive.save sheetId d).2, files) := rfl
  rw [hsave] at hok ⊢
  unfold MemoryArchive.save at hok ⊢
  cases hr : archive.savesRefused with
  | some reason => simp [hr] at hok
  | none => simp [keptInMemory, MemoryArchive.get?]

/-- What a directory keeps: the document that is loaded, if one is. -/
def keptInDirectory : Kept DirectoryArchive := fun archive files sheetId =>
  (archive.load files sheetId).toOption.join

theorem keepsSaves_directory : KeepsSaves keptInDirectory := by
  intro archive files sheetId d hd hok
  have hload := DirectoryArchive.returnsSaves archive files sheetId d hd hok
  exact congrArg (fun r : Except ArchiveError (Option Document) => r.toOption.join) hload

/-- An edit whose save is refused, then saved, and then a new row. -/
def editingRun : List (Action MemoryArchive) :=
  [ .editActive, .edit (·.insert 'x'), .commitAndStep,
    .outside { MemoryArchive.empty with savesRefused := some "full" } .empty .blank 500,
    .tick 1000,
    .outside MemoryArchive.empty .empty .blank 2000,
    .saveAtOnce, .appendRow ]

theorem along_editingRun :
    Run.Along act (NoOtherWriter keptInMemory)
      (Workspace.open smallSheet MemoryArchive.empty .empty) editingRun := by
  have houtside {v : Workspace MemoryArchive} {archive : MemoryArchive} {clock : Nat}
      (h : archive.get? v.sheetId = v.archive.get? v.sheetId) :
      NoOtherWriter keptInMemory v (.outside archive .empty .blank clock) := h
  exact ⟨trivial, trivial, trivial, houtside (by decide +kernel), trivial,
    houtside (by decide +kernel), trivial, trivial, trivial⟩

/-- An edit that is saved in a directory. -/
def storingRun : List (Action DirectoryArchive) :=
  [.editActive, .edit (·.insert 'x'), .commitAndStep, .saveAtOnce]

theorem wordsStart_smallSheet_memory : WordsStart smallSheet MemoryArchive.empty .empty :=
  ⟨⟨by decide, by decide⟩, fun d hd => by cases hd⟩

theorem wordsStart_directory {o : Options} (h : o.dims.AreWords) (archive : DirectoryArchive)
    (files : FileSystem) : WordsStart o archive files where
  dims := h
  document _ hd :=
    have hs := DirectoryArchive.storable_of_load hd
    ⟨hs.rows, hs.cols⟩

/-- The sheet is clean before the edit, the edit is saved in the end, and the new row is pending; what
is saved in a directory is kept there. -/
theorem run_saveState_editingRun :
    let start := Workspace.open smallSheet MemoryArchive.empty .empty
    let edited := start.run (editingRun.take 2)
    let saved := start.run (editingRun.take 7)
    let grown := start.run editingRun
    let stored := (Workspace.open smallSheet grids .empty).run storingRun
    KeepsSaves keptInMemory ∧ KeepsSaves keptInDirectory ∧
      Run.Along act (NoOtherWriter keptInMemory) start editingRun ∧
      (edited.saveState = .clean ∧ edited.grid = start.grid ∧ edited.dims = start.dims) ∧
      (saved.saveState = .saved ∧
        ∃ d, keptInMemory saved.archive saved.files "sheet" = some d ∧ d.grid = saved.grid) ∧
      (grown.saveState = .pending ∧ grown.timer.isRunning = true) ∧
      stored.saveState = .saved ∧
        ∃ d, keptInDirectory stored.archive stored.files "sheet" = some d ∧ d.grid = stored.grid := by
  intro start edited saved grown stored
  have hmemory : WordsStart smallSheet MemoryArchive.empty .empty := wordsStart_smallSheet_memory
  have hdirectory : WordsStart smallSheet grids .empty :=
    wordsStart_directory ⟨by decide, by decide⟩ grids .empty
  have hfits : FitsAlong start editingRun := fitsAlong_of_empty (by decide +kernel)
  have halone : Run.Along act (NoOtherWriter keptInMemory) start editingRun := along_editingRun
  have hbefore (n : Nat) : FitsAlong start (editingRun.take n) ∧
      Run.Along act (NoOtherWriter keptInMemory) start (editingRun.take n) := by
    rw [← List.take_append_drop n editingRun] at hfits halone
    exact ⟨(Run.along_append.1 hfits).1, (Run.along_append.1 halone).1⟩
  obtain ⟨-, -, hclean, -⟩ := run_saveState keptInMemory keepsSaves_memory hmemory rfl (hbefore 2).1
    (hbefore 2).2
  obtain ⟨-, hkept, -⟩ := run_saveState keptInMemory keepsSaves_memory hmemory rfl (hbefore 7).1
    (hbefore 7).2
  obtain ⟨hpending, -⟩ := run_saveState keptInMemory keepsSaves_memory hmemory rfl hfits halone
  have hstoring : FitsAlong (Workspace.open smallSheet grids .empty) storingRun :=
    fitsAlong_of_empty (by decide +kernel)
  obtain ⟨-, hstored, -⟩ := run_saveState keptInDirectory keepsSaves_directory hdirectory
    (by decide +kernel) hstoring ⟨trivial, trivial, trivial, trivial, trivial⟩
  have hedited : edited.saveState = .clean := by decide +kernel
  have hsaved : saved.saveState = .saved := by decide +kernel
  have hgrown : grown.saveState = .pending := by decide +kernel
  have hwritten : stored.saveState = .saved := by decide +kernel
  obtain ⟨d, hd, hgrid, -⟩ := hkept hsaved
  obtain ⟨e, he, hgrid', -⟩ := hstored hwritten
  exact ⟨keepsSaves_memory, keepsSaves_directory, halone, ⟨hedited, hclean hedited⟩,
    ⟨hsaved, d, hd, hgrid⟩, ⟨hgrown, hpending.1 hgrown⟩, hwritten, e, he, hgrid'⟩

end Workspace

end Spreadsheet
