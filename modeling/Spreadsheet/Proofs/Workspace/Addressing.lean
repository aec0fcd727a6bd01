import Spreadsheet.Proofs.History.Timeline
import Spreadsheet.Proofs.Run
import Spreadsheet.Proofs.Workspace.Growing

/-!
# Spreadsheet.Proofs.Workspace.Addressing — everything stays on the sheet

Whatever happens to a workspace, its cells, those of its history and everything that the selection
names lie on the sheet, and the sheet never shrinks.  `OnSheet` is the invariant; each action keeps
it, and so does everything that happens.
-/

namespace Spreadsheet

namespace Workspace

variable {γ : Type}

/-- Everything that a workspace names lies on its sheet. -/
structure OnSheet (w : Workspace γ) : Prop where
  words : w.dims.AreWords
  selection : w.selection.Within w.dims
  grid : w.grid.Within w.dims
  history : ∀ g ∈ w.history.states, g.Within w.dims

variable {w w' : Workspace γ}

theorem OnSheet.frame (h : OnSheet w) (hd : w'.dims = w.dims) (hs : w'.selection = w.selection)
    (hg : w'.grid = w.grid) (hh : w'.history = w.history) : OnSheet w' where
  words := hd ▸ h.words
  selection := hd ▸ hs ▸ h.selection
  grid := hd ▸ hg ▸ h.grid
  history := hd ▸ hh ▸ h.history

theorem OnSheet.isPlaced (h : OnSheet w) : IsPlaced w := ⟨h.words, h.selection⟩

/-- On a sheet that is no smaller the same cells still have their places. -/
theorem OnSheet.place (h : OnSheet w) (hp : IsPlaced w') (hd : w.dims ≤ w'.dims)
    (hg : w'.grid = w.grid) (hh : w'.history = w.history) : OnSheet w' where
  words := hp.words
  selection := hp.selection
  grid := hg ▸ h.grid.mono hd
  history g hmem := (h.history g (hh ▸ hmem)).mono hd

theorem OnSheet.alike (h : OnSheet w) (hsame : SameSheet w w') : OnSheet w' :=
  h.frame hsame.dims hsame.selection hsame.grid hsame.history

/-- Selecting something on the sheet. -/
theorem OnSheet.select (h : OnSheet w) {s : Selection} (hs : s.Within w.dims) :
    OnSheet { w with selection := s } :=
  ⟨h.words, hs, h.grid, h.history⟩

/-- Growing the sheet. -/
theorem OnSheet.grow (h : OnSheet w) {d : Dimensions} (hd : w.dims ≤ d) (hw : d.AreWords) :
    OnSheet { w with dims := d } :=
  ⟨hw, h.selection.mono hd, h.grid.mono hd, fun g hg => (h.history g hg).mono hd⟩

/-! ### Changing cells -/

theorem OnSheet.change (h : OnSheet w) {g : Grid} (hg : g.Within w.dims) :
    OnSheet (w.change g).2 := by
  by_cases hsame : g = w.grid
  · rw [change_same hsame]
    exact h
  · rw [change_new hsame]
    refine ⟨h.words, h.selection, hg, fun g' hg' => ?_⟩
    rcases History.mem_push hg' with rfl | hg'
    · exact h.grid
    · exact h.history g' hg'

theorem OnSheet.commit (h : OnSheet w) : OnSheet w.commit.2 ∧ w.commit.2.dims = w.dims := by
  cases he : w.selection.entry? with
  | none =>
    rw [commit_of_none he]
    exact ⟨h, rfl⟩
  | some entry =>
    rw [commit_of_some he]
    have hidle := h.select h.selection.idle
    have hset : (w.grid.set entry.cell entry.field.text).Within w.dims :=
      h.grid.set (h.selection.entry he) _
    exact ⟨hidle.change hset, change_dims _ _⟩

theorem OnSheet.cut (h : OnSheet w) : OnSheet w.cut.2 := by
  have hsame := cut_same w
  split_ifs at hsame
  · exact (h.change (h.grid.without _)).alike hsame
  · exact h.alike hsame

theorem OnSheet.paste (h : OnSheet w) : OnSheet w.paste.2 := by
  cases hr : w.clipboard.read with
  | error e => exact h.alike (paste_of_error w hr)
  | ok text =>
    have hsame := paste_same w hr
    have hchanged := h.change (Interchange.within_paste text w.selection.active h.grid)
    refine OnSheet.alike (OnSheet.select hchanged ?_) hsame
    rw [change_dims]
    cases hp : (Interchange.paste text w.selection.active w.grid w.dims).1 with
    | none => exact h.selection
    | some r =>
      obtain ⟨hstart, hstop⟩ := Interchange.contains_of_paste hp
      exact h.selection.choose hstart hstop

/-- Undo and redo bring back old cells under the present size of the sheet. -/
theorem OnSheet.travel (h : OnSheet w) {step : Option Grid × History Grid} (done nothing : String)
    (hstates : ∀ g, g ∈ step.2.states ∨ step.1 = some g → g = w.grid ∨ g ∈ w.history.states) :
    OnSheet (w.travel step done nothing) := by
  have hold (g : Grid) (hg : g ∈ step.2.states ∨ step.1 = some g) : g.Within w.dims := by
    rcases hstates g hg with rfl | hg
    · exact h.grid
    · exact h.history g hg
  unfold Workspace.travel
  split
  · exact ⟨h.words, h.selection.confine, hold _ (.inr rfl), fun g' hg' => hold g' (.inl hg')⟩
  · exact ⟨h.words, h.selection, h.grid, fun g' hg' => hold g' (.inl hg')⟩

/-! ### Importing -/

theorem within_roomFor {t : Table} (ht : t.IsTight) (hr : t.rows < Word.size)
    (hc : t.cols < Word.size) (d : Dimensions) : t.grid.Within (roomFor d t) := by
  intro e he
  obtain ⟨hrow, hcol⟩ := ht e he
  have hpos : 0 < t.rows ∧ 0 < t.cols := by omega
  rw [roomFor, if_pos hpos]
  refine Dimensions.contains_including ⟨?_, ?_⟩ ⟨?_, ?_⟩ <;> simp only <;> omega

theorem OnSheet.importTable (h : OnSheet w) (hf : w.files.FitsMemory) (path : String) :
    OnSheet (w.importTable path).2 := by
  unfold Workspace.importTable
  split
  · rename_i t ht
    obtain ⟨htight, hrows, hcols⟩ := TableFile.read_spec hf ht
    have hgrown := h.grow (le_roomFor w.dims t) (areWords_roomFor h.words t)
    have hgrid := within_roomFor htight hrows hcols w.dims
    have hchanged : OnSheet (Workspace.change { w with dims := roomFor w.dims t } t.grid).2 :=
      hgrown.change hgrid
    rw [adopt_eq]
    exact ⟨hchanged.words, Selection.within_start _, hchanged.grid, hchanged.history⟩
  · exact h.frame rfl rfl rfl rfl

theorem onSheet_fresh (o : Options) (archive : γ) (files : FileSystem) {grid : Grid}
    {dims : Dimensions} (message : Option String) (hd : dims.AreWords) (hg : grid.Within dims) :
    OnSheet (fresh o archive files grid dims message) :=
  ⟨hd, Selection.within_start _, hg, fun _ h => by cases h⟩

/-! ### Everything that is done -/

section Actions

variable [Archive γ]

/-- Every action keeps everything on the sheet, and the sheet does not shrink. -/
theorem OnSheet.act (h : OnSheet w) (hf : w.files.FitsMemory) (a : Action γ) :
    OnSheet (w.act a) ∧ w.dims ≤ (w.act a).dims := by
  have hplaced : IsPlaced (w.act a) := h.isPlaced.act a
  have hle := (dims_act h.words a).1
  refine ⟨?_, hle⟩
  by_cases hcells : Part.cells ∈ a.touches
  · -- the actions that may change the cells; what is selected has its place already
    cases a with
    | commitAndStep =>
      have hd : w.commit.2.dims ≤ w.commitAndStep.dims := h.commit.2 ▸ hle
      have hp : IsPlaced w.commitAndStep := hplaced
      show OnSheet w.commitAndStep
      rcases commitAndStep_cases w with he | he <;> rw [he] at hd hp ⊢
      · exact h.commit.1
      · exact h.commit.1.place hp hd rfl rfl
    | press p shift => exact h.commit.1.place hplaced (h.commit.2 ▸ hle) rfl rfl
    | clearRegion => exact (h.change (h.grid.without _)).alike (clearRegion_same w)
    | cut => exact h.cut
    | paste => exact h.paste
    | undo => exact h.travel _ _ fun g hg => History.mem_undo hg
    | redo => exact h.travel _ _ fun g hg => .inr (History.mem_redo hg)
    | importTable path => exact h.importTable hf path
    | confirm =>
      suffices ht : OnSheet w.transfer from ht.alike (sameSheet_closePrompt w.transfer)
      unfold transfer
      split
      · obtain ⟨files, message, he⟩ := exportTable_eq w w.promptPath
        rw [he]
        exact h.frame rfl rfl rfl rfl
      · split_ifs
        · exact h
        · exact h.importTable hf _
      · exact h
    | _ => simp [Action.touches] at hcells
  · -- the cells are as they were, on a sheet that is no smaller
    obtain ⟨hg, hh⟩ := (touchesOnly_act w a).same .cells hcells
    exact h.place hplaced hle hg hh

/-! ### Everything that happens -/

theorem OnSheet.happen (h : OnSheet w) (hf : w.files.FitsMemory) (e : Happening γ) :
    OnSheet (w.happen e) ∧ w.dims ≤ (w.happen e).dims := by
  refine happen_preserves (P := fun v => OnSheet v ∧ w.dims ≤ v.dims) e ?_ ?_
    ⟨h, Dimensions.le_refl _⟩
  · intro rows cols _
    exact ⟨h.frame rfl rfl rfl rfl, Dimensions.le_refl _⟩
  · rintro v a hv - ⟨hs, hd⟩
    have hfv : v.files.FitsMemory := by rcases hv with rfl | rfl <;> exact hf
    obtain ⟨hs', hd'⟩ := hs.act hfv a
    exact ⟨hs', Dimensions.le_trans hd hd'⟩

/-- Throughout what happens, every file is short enough for its characters to be counted. -/
def FitsThroughout (w : Workspace γ) (hs : List (Happening γ)) : Prop :=
  Run.Along Workspace.happen (fun v _ => v.files.FitsMemory) w hs

/-- Where there are no files, they are short enough. -/
theorem fitsThroughout_of_empty {hs : List (Happening γ)}
    (h : Run.Along Workspace.happen (fun v _ => v.files = .empty) w hs) : FitsThroughout w hs :=
  h.mono fun _ _ hv => hv ▸ FileSystem.fitsMemory_empty

theorem OnSheet.live (h : OnSheet w) {hs : List (Happening γ)} (hf : FitsThroughout w hs) :
    OnSheet (w.live hs) ∧ w.dims ≤ (w.live hs).dims := by
  refine Run.Along.invariant (I := fun v => OnSheet v ∧ w.dims ≤ v.dims) ?_ hf
    ⟨h, Dimensions.le_refl _⟩
  rintro v e hfv ⟨hv, hd⟩
  obtain ⟨hv', hd'⟩ := hv.happen hfv e
  exact ⟨hv', Dimensions.le_trans hd hd'⟩

/-- A workspace is opened with a size in words, and every cell of a document that the archive keeps
for it has an id. -/
structure SoundStart (o : Options) (archive : γ) (files : FileSystem) : Prop where
  dims : o.dims.AreWords
  document : ∀ d, Archive.load archive files o.sheetId = .ok (some d) →
    d.rows < Word.size ∧ d.cols < Word.size ∧ ∀ e ∈ d.grid.entries, e.1.HasId

theorem SoundStart.onSheet {o : Options} {archive : γ} {files : FileSystem}
    (h : SoundStart o archive files) : OnSheet (Workspace.open o archive files) := by
  unfold Workspace.open
  split
  · rename_i d hload
    obtain ⟨hr, hc, hid⟩ := h.document d hload
    exact OnSheet.frame (onSheet_fresh o archive files none (Document.areWords_dims hr hc)
      ((Document.within_dims_iff hr hc).2 hid)) rfl rfl rfl rfl
  · exact onSheet_fresh _ _ _ _ h.dims (Grid.within_empty _)
  · exact onSheet_fresh _ _ _ _ h.dims (Grid.within_empty _)

/-- A document of which some cell has no id stops the program when it is opened. -/
theorem WordsStart.soundStart {o : Options} {archive : γ} {files : FileSystem}
    (h : WordsStart o archive files) (hopen : (Workspace.open o archive files).stopped = false) :
    SoundStart o archive files where
  dims := h.dims
  document d hload := by
    obtain ⟨hr, hc⟩ := h.document d hload
    unfold Workspace.open at hopen
    rw [hload] at hopen
    obtain ⟨size, hsize⟩ := Option.ne_none_iff_exists'.1 (Option.isNone_eq_false_iff.1 hopen |>
      Option.isSome_iff_ne_none.1)
    exact ⟨hr, hc, (Document.dims?_eq_some_iff.1 hsize).1⟩

end Actions

end Workspace

end Spreadsheet
