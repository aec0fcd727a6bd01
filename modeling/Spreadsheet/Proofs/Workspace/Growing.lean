import Spreadsheet.Proofs.Interchange.Within
import Spreadsheet.Proofs.Selection.Within
import Spreadsheet.Proofs.Workspace.Selecting

/-!
# Spreadsheet.Proofs.Workspace.Growing — what is selected stays on a sheet that only grows

The number of rows and columns never falls and stays a word, and what is selected stays on the
sheet.  `IsPlaced` is the part of `OnSheet` that asks nothing of the cells, so it is kept whatever
the files hold.
-/

namespace Spreadsheet

theorem Selection.Within.takeEdit {s : Selection} {d : Dimensions} (h : s.Within d) :
    s.takeEdit.2.Within d := by
  cases he : s.entry? with
  | none =>
    rw [takeEdit_of_none he]
    exact h
  | some entry =>
    rw [takeEdit_of_some he]
    exact h.idle

namespace Workspace

variable {γ : Type}

/-- The size is in words, and everything that is selected lies on the sheet. -/
structure IsPlaced (w : Workspace γ) : Prop where
  words : w.dims.AreWords
  selection : w.selection.Within w.dims

variable {w : Workspace γ}

/-! ### What is selected -/

theorem within_selectionAfterTravel (h : w.selection.Within w.dims)
    (step : Option Grid × History Grid) : (w.selectionAfterTravel step).Within w.dims := by
  unfold selectionAfterTravel
  split
  · exact h.confine
  · exact h

theorem within_selectionAfterImport (h : w.selection.Within w.dims) (path : String) :
    (w.selectionAfterImport path).Within w.dims := by
  unfold selectionAfterImport
  split
  · exact Selection.within_start w.dims
  · exact h

theorem contains_of_pasted? {r : Range} (h : w.pasted? = some r) :
    w.dims.contains r.start = true ∧ w.dims.contains r.stop = true := by
  unfold pasted? at h
  split at h
  · exact Interchange.contains_of_paste h
  · cases h

/-- Whatever is done selects something on the sheet as it was before. -/
theorem within_selectionAfter (h : w.selection.Within w.dims) (a : Action γ) :
    (w.selectionAfter a).Within w.dims := by
  -- what is newly selected is the cell nearest to a point, a step away, or a corner of a paste
  cases a with
  | editActive => exact h.startEdit _
  | edit f => exact h.edit f
  | commitAndStep =>
    simp only [selectionAfter]
    split
    · exact h.takeEdit.step .down false
    · exact h
  | dropEdit => exact h.dropEdit
  | step d extend => exact h.step d extend
  | chooseAll => exact h.chooseAll
  | press p shift => exact h.takeEdit.press (Dimensions.contains_nearest w.dims p) shift
  | drag p => exact h.drag (Dimensions.contains_nearest w.dims p)
  | release => exact h.release
  | paste =>
    simp only [selectionAfter]
    cases hp : w.pasted? with
    | none => exact h
    | some r =>
      obtain ⟨hstart, hstop⟩ := contains_of_pasted? hp
      exact h.choose hstart hstop
  | undo => exact within_selectionAfterTravel h _
  | redo => exact within_selectionAfterTravel h _
  | confirm =>
    simp only [selectionAfter]
    split
    · exact within_selectionAfterImport h _
    · exact h
  | importTable path => exact within_selectionAfterImport h path
  | _ => exact h

/-! ### The size -/

theorem le_roomFor (d : Dimensions) (t : Table) : d ≤ roomFor d t := by
  unfold roomFor
  split_ifs
  · exact Dimensions.le_including d _
  · exact Dimensions.le_refl d

theorem areWords_roomFor {d : Dimensions} (h : d.AreWords) (t : Table) : (roomFor d t).AreWords := by
  unfold roomFor
  split_ifs
  · exact Dimensions.areWords_including h _
  · exact h

theorem importTable_dims (w : Workspace γ) (path : String) :
    (w.importTable path).2.dims = w.dims ∨ ∃ t, (w.importTable path).2.dims = roomFor w.dims t := by
  unfold importTable
  split
  · rename_i t ht
    refine .inr ⟨t, ?_⟩
    rw [adopt_eq]
    exact change_dims { w with dims := roomFor w.dims t } t.grid
  · exact .inl rfl

section Archives

variable [Archive γ]

/-- Whatever is done, the sheet does not shrink and its size stays in words. -/
theorem dims_act (h : w.dims.AreWords) (a : Action γ) :
    w.dims ≤ (w.act a).dims ∧ (w.act a).dims.AreWords := by
  have stay {v : Workspace γ} (hd : v.dims = w.dims) : w.dims ≤ v.dims ∧ v.dims.AreWords :=
    ⟨hd ▸ Dimensions.le_refl _, hd ▸ h⟩
  have import_grows (path : String) :
      w.dims ≤ (w.importTable path).2.dims ∧ (w.importTable path).2.dims.AreWords := by
    rcases importTable_dims w path with hd | ⟨t, hd⟩
    · exact stay hd
    · rw [hd]
      exact ⟨le_roomFor w.dims t, areWords_roomFor h t⟩
  by_cases hsize : Part.size ∈ a.touches
  · -- the actions that may change the size
    cases a with
    | appendRow => exact ⟨Dimensions.le_moreRows h 1, Dimensions.areWords_moreRows h 1⟩
    | appendCol => exact ⟨Dimensions.le_moreCols h 1, Dimensions.areWords_moreCols h 1⟩
    | importTable path => exact import_grows path
    | confirm =>
      show w.dims ≤ w.transfer.dims ∧ w.transfer.dims.AreWords
      unfold transfer
      split
      · exact stay (exportTable_dims w _)
      · split_ifs
        · exact stay rfl
        · exact import_grows _
      · exact stay rfl
    | _ => simp [Action.touches] at hsize
  · exact stay ((touchesOnly_act w a).same .size hsize)

/-! ### Everything that happens -/

theorem IsPlaced.act (h : IsPlaced w) (a : Action γ) : IsPlaced (w.act a) := by
  obtain ⟨hle, hwords⟩ := dims_act h.words a
  refine ⟨hwords, ?_⟩
  rw [act_selection w a]
  exact (within_selectionAfter h.selection a).mono hle

theorem IsPlaced.happen (h : IsPlaced w) (e : Happening γ) : IsPlaced (w.happen e) :=
  happen_preserves e (fun rows cols _ => h.act (.resize rows cols)) (fun _ a _ _ hv => hv.act a) h

theorem IsPlaced.live (h : IsPlaced w) (hs : List (Happening γ)) : IsPlaced (w.live hs) := by
  induction hs generalizing w with
  | nil => exact h
  | cons e hs ih => exact ih (h.happen e)

/-- A workspace is opened with a size in words, and a document that the archive keeps for it has
one. -/
structure WordsStart (o : Options) (archive : γ) (files : FileSystem) : Prop where
  dims : o.dims.AreWords
  document : ∀ d, Archive.load archive files o.sheetId = .ok (some d) →
    d.rows < Word.size ∧ d.cols < Word.size

theorem WordsStart.isPlaced {o : Options} {archive : γ} {files : FileSystem}
    (h : WordsStart o archive files) : IsPlaced (Workspace.open o archive files) := by
  unfold Workspace.open
  split
  · rename_i d hload
    obtain ⟨hr, hc⟩ := h.document d hload
    exact ⟨Document.areWords_dims hr hc, Selection.within_start _⟩
  · exact ⟨h.dims, Selection.within_start _⟩
  · exact ⟨h.dims, Selection.within_start _⟩

end Archives

end Workspace

end Spreadsheet
