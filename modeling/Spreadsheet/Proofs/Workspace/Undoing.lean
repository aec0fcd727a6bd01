import Spreadsheet.Proofs.History.Timeline
import Spreadsheet.Proofs.Workspace.Frame

/-!
# Spreadsheet.Proofs.Workspace.Undoing — undo and redo over whole runs

Whatever is done to a workspace, its cells and what undo and redo do are those of a bounded
timeline: each action that writes cells is recorded as one step, undo and redo move along the
timeline, and nothing else touches it.  The cells that an action writes are given by `written?`,
which does not look at the history.
-/

namespace Spreadsheet

namespace Workspace

variable {γ : Type}

/-- The cells after an action that writes cells. -/
def written? (w : Workspace γ) : Action γ → Option Grid
  | .commitAndStep | .press .. =>
    w.selection.entry?.map fun entry => w.grid.set entry.cell entry.field.text
  | .clearRegion => some (w.grid.eraseWithin w.selection.region.rect)
  | .cut =>
    match w.clipboard.fault with
    | none => some (w.grid.eraseWithin w.selection.region.rect)
    | some _ => none
  | .paste =>
    match w.clipboard.read with
    | .ok text => some (Interchange.paste text w.selection.active w.grid w.dims).2
    | .error _ => none
  | .importTable path => (TableFile.read w.files path).toOption.map Table.grid
  | .confirm =>
    if w.mode = .importPrompt ∧ w.promptPath.isEmpty = false then
      (TableFile.read w.files w.promptPath).toOption.map Table.grid
    else none
  | _ => none

/-- The timeline when the cells become those given, if any are. -/
def recorded (limit : Nat) (t : Timeline Grid) : Option Grid → Timeline Grid
  | some g => t.record limit g
  | none => t

/-- The timeline after an action. -/
def follow (limit : Nat) (t : Timeline Grid) (w : Workspace γ) : Action γ → Timeline Grid
  | .undo => t.undo
  | .redo => t.redo
  | a => recorded limit t (w.written? a)

/-- The timeline after a run of actions. -/
def timeline [Archive γ] (limit : Nat) : Timeline Grid → Workspace γ → List (Action γ) → Timeline Grid
  | t, _, [] => t
  | t, w, a :: as => timeline limit (follow limit t w a) (w.act a) as

/-- The cells and the history of a workspace are those of a timeline. -/
structure Tracks (limit : Nat) (w : Workspace γ) (t : Timeline Grid) : Prop where
  keeps : w.history.Keeps t
  limit_eq : w.history.limit = limit
  grid_eq : w.grid = t.present

variable {limit : Nat} {w w' : Workspace γ} {t : Timeline Grid}

/-- Only the cells and the history matter. -/
theorem Tracks.frame (k : Tracks limit w t) (hg : w'.grid = w.grid) (hh : w'.history = w.history) :
    Tracks limit w' t :=
  ⟨hh ▸ k.keeps, hh ▸ k.limit_eq, hg.trans k.grid_eq⟩

/-! ### Changes are recorded -/

theorem Tracks.alike (k : Tracks limit w t) (h : SameSheet w w') : Tracks limit w' t :=
  k.frame h.grid h.history

theorem Tracks.change (k : Tracks limit w t) (g : Grid) :
    Tracks limit (w.change g).2 (t.record limit g) := by
  by_cases hg : g = w.grid
  · have hstay : t.record limit g = t := by
      rw [Timeline.record, if_pos (hg.trans k.grid_eq)]
    rw [change_same hg, hstay]
    exact k
  · have hg' : g ≠ t.present := k.grid_eq ▸ hg
    have hpush := k.keeps.push hg'
    rw [k.limit_eq, ← k.grid_eq] at hpush
    rw [change_new hg]
    refine ⟨hpush, k.limit_eq, ?_⟩
    rw [Timeline.record, if_neg hg']
    rfl

theorem Tracks.commit (k : Tracks limit w t) :
    Tracks limit w.commit.2
      (recorded limit t (w.selection.entry?.map fun e => w.grid.set e.cell e.field.text)) := by
  cases he : w.selection.entry? with
  | none =>
    rw [commit_of_none he]
    exact k
  | some entry =>
    rw [commit_of_some he]
    have hidle : Tracks limit { w with selection := { w.selection with activity := .idle } } t :=
      k.frame rfl rfl
    exact hidle.change _

theorem Tracks.clearRegion (k : Tracks limit w t) :
    Tracks limit w.clearRegion.2
      (t.record limit (w.grid.eraseWithin w.selection.region.rect)) :=
  (k.change _).alike (clearRegion_same w)

/-- Cutting is one step. -/
theorem Tracks.cut (k : Tracks limit w t) :
    Tracks limit w.cut.2 (recorded limit t (w.written? (.cut : Action γ))) := by
  have hsame := cut_same w
  unfold written?
  cases hf : w.clipboard.fault with
  | some e =>
    rw [hf, if_neg (by simp)] at hsame
    exact k.alike hsame
  | none =>
    rw [hf, if_pos rfl] at hsame
    exact (k.change _).alike hsame

theorem Tracks.paste (k : Tracks limit w t) :
    Tracks limit w.paste.2 (recorded limit t (w.written? (.paste : Action γ))) := by
  unfold written?
  cases hr : w.clipboard.read with
  | error e => exact k.alike (paste_of_error w hr)
  | ok text =>
    have hsame := paste_same w hr
    exact (k.change _).frame hsame.grid hsame.history

theorem Tracks.importTable (k : Tracks limit w t) (path : String) :
    Tracks limit (w.importTable path).2
      (recorded limit t ((TableFile.read w.files path).toOption.map Table.grid)) := by
  unfold Workspace.importTable
  cases TableFile.read w.files path with
  | error e => exact k.frame rfl rfl
  | ok table =>
    simp only [adopt_eq]
    have hgrown : Tracks limit { w with dims := roomFor w.dims table } t := k.frame rfl rfl
    exact (hgrown.change table.grid).frame rfl rfl

theorem Tracks.transfer (k : Tracks limit w t) :
    Tracks limit w.transfer (recorded limit t (w.written? (.confirm : Action γ))) := by
  unfold Workspace.transfer written?
  cases hm : w.mode with
  | normal => exact k
  | help => exact k
  | exportPrompt =>
    unfold Workspace.exportTable
    simp only [reduceCtorEq, false_and, if_false]
    split <;> exact k.frame rfl rfl
  | importPrompt =>
    by_cases hp : w.promptPath.isEmpty = true
    · simp only [hp, Bool.true_eq_false, and_false, if_true, if_false]
      exact k
    · simp only [Bool.not_eq_true] at hp
      simp only [hp, and_self, if_true, Bool.false_eq_true, if_false]
      exact k.importTable w.promptPath

/-! ### Undo and redo move along -/

theorem Tracks.undo (k : Tracks limit w t) : Tracks limit w.undo t.undo := by
  obtain ⟨hstate, hkeeps⟩ := k.keeps.undo
  rw [← k.grid_eq] at hstate hkeeps
  refine ⟨?_, ?_, ?_⟩
  · simpa [Workspace.undo] using hkeeps
  · simpa [Workspace.undo] using k.limit_eq
  · rw [Workspace.undo, travel_grid, hstate, k.grid_eq, Timeline.undo_present]

theorem Tracks.redo (k : Tracks limit w t) : Tracks limit w.redo t.redo := by
  obtain ⟨hstate, hkeeps⟩ := k.keeps.redo
  refine ⟨?_, ?_, ?_⟩
  · simpa [Workspace.redo] using hkeeps
  · simpa [Workspace.redo] using k.limit_eq
  · rw [Workspace.redo, travel_grid, hstate, k.grid_eq, Timeline.redo_present]

/-- An undo changes the cells exactly if there is a past, and says which. -/
theorem Tracks.undo_outcome (k : Tracks limit w t) :
    (w.undo.grid = w.grid ↔ t.past = []) ∧
      w.undo.message = some (if t.past.isEmpty then "Nothing to undo" else "Undo") := by
  have hne := k.keeps.present_ne.1
  rw [k.undo.grid_eq, k.grid_eq]
  refine ⟨Timeline.undo_present_eq_iff hne, ?_⟩
  rw [Workspace.undo, travel_message, k.grid_eq, k.keeps.undo.1]
  cases t.past <;> rfl

/-- A redo changes the cells exactly if there is a future, and says which. -/
theorem Tracks.redo_outcome (k : Tracks limit w t) :
    (w.redo.grid = w.grid ↔ t.future = []) ∧
      w.redo.message = some (if t.future.isEmpty then "Nothing to redo" else "Redo") := by
  have hne := k.keeps.present_ne.2
  rw [k.redo.grid_eq, k.grid_eq]
  refine ⟨Timeline.redo_present_eq_iff hne, ?_⟩
  rw [Workspace.redo, travel_message, k.keeps.redo.1]
  cases t.future <;> rfl

/-! ### Runs -/

variable [Archive γ]

theorem Tracks.act (k : Tracks limit w t) (a : Action γ) :
    Tracks limit (w.act a) (follow limit t w a) := by
  by_cases hcells : Part.cells ∈ a.touches
  · cases a with
    | commitAndStep =>
      show Tracks limit w.commitAndStep _
      rcases commitAndStep_cases w with he | he <;> rw [he]
      · exact k.commit
      · exact k.commit.frame rfl rfl
    | press p shift => exact k.commit.frame rfl rfl
    | clearRegion => exact k.clearRegion
    | cut => exact k.cut
    | paste => exact k.paste
    | undo => exact k.undo
    | redo => exact k.redo
    | confirm => exact k.transfer.alike (sameSheet_closePrompt _)
    | importTable path => exact k.importTable path
    | _ => simp [Action.touches] at hcells
  · -- what leaves the cells alone is no step of the timeline
    obtain ⟨hg, hh⟩ := (touchesOnly_act w a).same .cells hcells
    have hfollow : follow limit t w a = t := by
      cases a <;> first | rfl | simp [Action.touches] at hcells
    rw [hfollow]
    exact k.frame hg hh

theorem Tracks.run (k : Tracks limit w t) (as : List (Action γ)) :
    Tracks limit (w.run as) (timeline limit t w as) := by
  induction as generalizing w t with
  | nil => exact k
  | cons a as ih => exact ih (k.act a)

theorem tracks_open (o : Options) (archive : γ) (files : FileSystem) :
    Tracks (max o.historyLimit 2) (Workspace.open o archive files)
      (Timeline.starting (Workspace.open o archive files).grid) := by
  obtain ⟨grid, dims, message, stopped, he⟩ := open_eq o archive files
  rw [he]
  exact ⟨History.keeps_keeping _ _, rfl, rfl⟩

/-- After every run the cells are the present of the run's timeline, undo and redo move along it and
change the cells exactly if there is something to move to, and what can be undone and redone is its
past and its future. -/
theorem run_timeline (o : Options) (archive : γ) (files : FileSystem) (as : List (Action γ)) :
    let start := Workspace.open o archive files
    let w := start.run as
    let t := timeline (max o.historyLimit 2) (Timeline.starting start.grid) start as
    w.grid = t.present ∧
      (w.undo.grid = t.undo.present ∧ (w.undo.grid = w.grid ↔ t.past = []) ∧
        w.undo.message = some (if t.past.isEmpty then "Nothing to undo" else "Undo")) ∧
      (w.redo.grid = t.redo.present ∧ (w.redo.grid = w.grid ↔ t.future = []) ∧
        w.redo.message = some (if t.future.isEmpty then "Nothing to redo" else "Redo")) ∧
      (w.history.canUndo = true ↔ t.past ≠ []) ∧ (w.history.canRedo = true ↔ t.future ≠ []) := by
  intro start w t
  have k : Tracks (max o.historyLimit 2) w t := (tracks_open o archive files).run as
  exact ⟨k.grid_eq, ⟨k.undo.grid_eq, k.undo_outcome⟩, ⟨k.redo.grid_eq, k.redo_outcome⟩,
    k.keeps.canUndo_iff, k.keeps.canRedo_iff⟩

end Workspace

end Spreadsheet
