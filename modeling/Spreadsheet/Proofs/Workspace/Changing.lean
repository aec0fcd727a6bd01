import Spreadsheet.Proofs.Interchange.Pasting
import Spreadsheet.Proofs.Workspace.Growing

/-!
# Spreadsheet.Proofs.Workspace.Changing — gestures change the cells they are for

Committing an edit writes its cell, clearing and cutting empty the selected cells, and a paste writes
the range that it selects; all other cells keep their texts.  The cells before are pushed on the
history, and a save is scheduled, exactly if some cell is different afterwards (`Records`).  A paste
that counts beyond the words writes nothing and stops the program.
-/

namespace Spreadsheet

namespace Workspace

variable {γ : Type}

/-- The size stays the same.  If some cell is different, the cells before are pushed on the history
and a save is scheduled, and otherwise neither happens. -/
structure Records (w w' : Workspace γ) : Prop where
  dims : w'.dims = w.dims
  changed : (∃ p, w'.grid.get? p ≠ w.grid.get? p) →
    w'.history = w.history.push w.grid ∧ w'.timer = w.timer.restart w.clock ∧ w'.saveState = .pending
  unchanged : (∀ p, w'.grid.get? p = w.grid.get? p) →
    w'.history = w.history ∧ w'.timer = w.timer ∧ w'.saveState = w.saveState

variable {w w' w'' : Workspace γ}

theorem Records.refl (w : Workspace γ) : Records w w where
  dims := rfl
  changed h := h.elim fun _ hp => absurd rfl hp
  unchanged _ := ⟨rfl, rfl, rfl⟩

theorem Records.frame (h : Records w w') (hd : w''.dims = w'.dims) (hg : w''.grid = w'.grid)
    (hh : w''.history = w'.history) (ht : w''.timer = w'.timer) (hs : w''.saveState = w'.saveState) :
    Records w w'' where
  dims := hd.trans h.dims
  changed := by
    rw [hg, hh, ht, hs]
    exact h.changed
  unchanged := by
    rw [hg, hh, ht, hs]
    exact h.unchanged

theorem Records.alike (h : Records w w') (hsame : SameSheet w' w'') : Records w w'' :=
  h.frame hsame.dims hsame.grid hsame.history hsame.timer hsame.saveState

theorem records_change (w : Workspace γ) (g : Grid) : Records w (w.change g).2 := by
  by_cases h : g = w.grid
  · rw [change_same h]
    exact .refl w
  · rw [change_new h]
    exact ⟨rfl, fun _ => ⟨rfl, rfl, rfl⟩, fun hsame => absurd (Grid.ext_get? hsame) h⟩

/-! ### Committing -/

section Commit

variable {entry : CellEdit} (he : w.selection.entry? = some entry)

include he

/-- A commit changes no cell but that of the edit, which has the edited text afterwards. -/
theorem commit_records :
    Records w w.commit.2 ∧ w.commit.2.grid = w.grid.set entry.cell entry.field.text := by
  rw [commit_of_some he]
  have hrecords := records_change { w with selection := { w.selection with activity := .idle } }
    (w.grid.set entry.cell entry.field.text)
  exact ⟨⟨hrecords.dims, hrecords.changed, hrecords.unchanged⟩, change_grid _ _⟩

/-- Whichever way the edit is committed. -/
theorem records_of_commit
    (h : w' = w.commit.2 ∨ w' = w.commitAndStep ∨ ∃ p shift, w' = w.press p shift) :
    Records w w' ∧ w'.grid = w.grid.set entry.cell entry.field.text := by
  obtain ⟨hrecords, hgrid⟩ := commit_records he
  rcases h with rfl | rfl | ⟨p, shift, rfl⟩
  · exact ⟨hrecords, hgrid⟩
  · rw [commitAndStep_of_some he]
    exact ⟨hrecords.frame rfl rfl rfl rfl rfl, hgrid⟩
  · exact ⟨hrecords.frame rfl rfl rfl rfl rfl, hgrid⟩

end Commit

/-! ### Clearing and cutting -/

theorem fault_eq_none_of_copy (h : w.copy.1 = true) : w.clipboard.fault = none := by
  unfold copy Clipboard.write at h
  cases hf : w.clipboard.fault with
  | none => rfl
  | some e =>
    rw [hf] at h
    cases h

theorem records_of_clear (h : w' = w.clearRegion.2 ∨ w.copy.1 = true ∧ w' = w.cut.2) :
    Records w w' ∧ w'.grid = w.grid.eraseWithin w.selection.region.rect := by
  have hrecords := records_change w (w.grid.eraseWithin w.selection.region.rect)
  rcases h with rfl | ⟨hcopy, rfl⟩
  · have hsame := clearRegion_same w
    exact ⟨hrecords.alike hsame, hsame.grid.trans (change_grid _ _)⟩
  · have hsame := cut_same w
    rw [if_pos (fault_eq_none_of_copy hcopy)] at hsame
    exact ⟨hrecords.alike hsame, hsame.grid.trans (change_grid _ _)⟩

/-! ### Pasting -/

theorem records_paste (w : Workspace γ) : Records w w.paste.2 := by
  cases hr : w.clipboard.read with
  | error e => exact (Records.refl w).alike (paste_of_error w hr)
  | ok text =>
    have hrecords := records_change w (Interchange.paste text w.selection.active w.grid w.dims).2
    have hsame := paste_same w hr
    exact hrecords.frame hsame.dims hsame.grid hsame.history hsame.timer hsame.saveState

/-- A text on the clipboard whose block ends in the words is pasted at the active cell, and the part of
the block on the sheet is selected. -/
theorem IsPlaced.paste_of_endsInWords (h : IsPlaced w) {text : String}
    (hr : w.clipboard.read = .ok text)
    (hends : Interchange.EndsInWords w.selection.active (Interchange.fieldRows text)) :
    let rows := Interchange.fieldRows text
    w.paste.1 = true ∧
      w.paste.2.selection.range = some (Interchange.coveredRange w.selection.active rows w.dims) ∧
      w.paste.2.grid = Interchange.pasteRows w.dims w.selection.active w.grid rows := by
  have hpaste := Interchange.paste?_of_endsInWords w.grid h.selection.active hends
  unfold paste
  rw [hr]
  simp only [hpaste]
  exact ⟨trivial, rfl, change_grid _ _⟩

theorem IsPlaced.paste_of_not_endsInWords (h : IsPlaced w) {text : String}
    (hr : w.clipboard.read = .ok text)
    (hends : ¬ Interchange.EndsInWords w.selection.active (Interchange.fieldRows text)) :
    w.paste = (false, w.stop) := by
  have hpaste : Interchange.paste? text w.selection.active w.grid w.dims = none :=
    Interchange.paste?_eq_none_iff.2 ⟨h.selection.active, hends⟩
  unfold paste
  rw [hr]
  simp only [hpaste]

/-- A paste works exactly if there is a text on the clipboard whose block ends in the words. -/
theorem IsPlaced.paste_works_iff (h : IsPlaced w) :
    w.paste.1 = true ↔ ∃ text, w.clipboard.read = .ok text ∧
      Interchange.EndsInWords w.selection.active (Interchange.fieldRows text) := by
  constructor
  · intro hworks
    cases hr : w.clipboard.read with
    | error e =>
      unfold paste at hworks
      rw [hr] at hworks
      cases hworks
    | ok text =>
      refine ⟨text, rfl, ?_⟩
      by_contra hends
      rw [h.paste_of_not_endsInWords hr hends] at hworks
      cases hworks
  · rintro ⟨text, hr, hends⟩
    exact (h.paste_of_endsInWords hr hends).1

/-- A paste that works changes only cells of the range that is selected then. -/
theorem IsPlaced.get?_paste_of_outside (h : IsPlaced w) (hworks : w.paste.1 = true) :
    ∃ r, w.paste.2.selection.range = some r ∧
      ∀ p, r.contains p = false → w.paste.2.grid.get? p = w.grid.get? p := by
  obtain ⟨text, hr, hends⟩ := h.paste_works_iff.1 hworks
  obtain ⟨-, hrange, hgrid⟩ := h.paste_of_endsInWords hr hends
  rw [hgrid]
  exact ⟨_, hrange, fun p => Interchange.get?_pasteRows_of_outside h.selection.active⟩

/-! ### The whole -/

/-- Whatever has happened before, each gesture that changes cells records the change if there is one.
A commit writes the cell of the edit, clearing and cutting empty the selected cells, and every other
cell keeps its text; so it is with the cells outside the range of a paste that works.  A paste of a
text that does not work leaves everything as it is and stops the program. -/
theorem live_changing [Archive γ] {o : Options} {archive : γ} {files : FileSystem}
    (hstart : WordsStart o archive files) (hs : List (Happening γ)) :
    let w := (Workspace.open o archive files).live hs
    (∀ entry, w.selection.entry? = some entry →
      ∀ w', (w' = w.commit.2 ∨ w' = w.commitAndStep ∨ ∃ p shift, w' = w.press p shift) →
        Records w w' ∧
          w'.grid.get? entry.cell =
            (if Text.isBlankText entry.field.text = true then none else some entry.field.text) ∧
          ∀ p, p ≠ entry.cell → w'.grid.get? p = w.grid.get? p) ∧
    (∀ w', (w' = w.clearRegion.2 ∨ w.copy.1 = true ∧ w' = w.cut.2) →
      Records w w' ∧
        ∀ p, w'.grid.get? p = if w.selection.region.contains p then none else w.grid.get? p) ∧
    Records w w.paste.2 ∧
    (w.paste.1 = true → ∃ r, w.paste.2.selection.range = some r ∧
      ∀ p, r.contains p = false → w.paste.2.grid.get? p = w.grid.get? p) ∧
    ∀ text, w.clipboard.read = .ok text →
      (w.paste.1 = true ↔
        Interchange.EndsInWords w.selection.active (Interchange.fieldRows text)) ∧
      (w.paste.1 = false → w.paste.2 = w.stop) := by
  intro w
  -- all that is needed of what has happened: the active cell and the selected ones are on the sheet
  have hplaced : IsPlaced w := hstart.isPlaced.live hs
  refine ⟨fun entry he w' h => ?_, fun w' h => ?_, records_paste w, hplaced.get?_paste_of_outside,
    fun text hr => ⟨?_, fun hfails => ?_⟩⟩
  · obtain ⟨hrecords, hgrid⟩ := records_of_commit he h
    rw [hgrid]
    exact ⟨hrecords, Grid.get?_set_self _ _ _, fun p hp => Grid.get?_set_of_ne _ hp⟩
  · obtain ⟨hrecords, hgrid⟩ := records_of_clear h
    rw [hgrid]
    exact ⟨hrecords, fun p => Grid.get?_without _ _ p⟩
  · rw [hplaced.paste_works_iff]
    constructor
    · rintro ⟨text', hr', hends⟩
      obtain rfl := Except.ok.inj (hr.symm.trans hr')
      exact hends
    · exact fun hends => ⟨text, hr, hends⟩
  · have hends : ¬ Interchange.EndsInWords w.selection.active (Interchange.fieldRows text) := by
      intro hends
      rw [(hplaced.paste_of_endsInWords hr hends).1] at hfails
      cases hfails
    rw [hplaced.paste_of_not_endsInWords hr hends]

/-- Three fields are on the clipboard while a text is typed into the first cell of a small sheet. -/
theorem live_changing_smallSheet :
    let happenings : List (Happening MemoryArchive) :=
      [.outside MemoryArchive.empty .empty ⟨some "1\t2\n3", none⟩ 0, .key .enter Modifiers.none,
        .key (.char 'x') Modifiers.none]
    let w := (Workspace.open smallSheet MemoryArchive.empty .empty).live happenings
    WordsStart smallSheet MemoryArchive.empty .empty ∧
      w.selection.entry? = some ⟨⟨0, 0⟩, TextField.ofText "x"⟩ ∧ w.copy.1 = true ∧
      (Records w w.commitAndStep ∧ w.commitAndStep.grid.get? ⟨0, 0⟩ = some "x") ∧
      (Records w w.cut.2 ∧ w.cut.2.grid.get? ⟨0, 0⟩ = none) ∧
      (Records w w.paste.2 ∧ w.paste.1 = true ∧
        ∃ r, w.paste.2.selection.range = some r ∧
          ∀ p, r.contains p = false → w.paste.2.grid.get? p = w.grid.get? p) := by
  intro happenings w
  have hstart : WordsStart smallSheet MemoryArchive.empty .empty :=
    ⟨⟨by decide, by decide⟩, fun d hd => by cases hd⟩
  have hentry : w.selection.entry? = some ⟨⟨0, 0⟩, TextField.ofText "x"⟩ := by decide +kernel
  have hcopy : w.copy.1 = true := by decide +kernel
  have hread : w.clipboard.read = .ok "1\t2\n3" := by decide +kernel
  have hactive : w.selection.active = ⟨0, 0⟩ := by decide +kernel
  obtain ⟨hcommit, hclear, hpaste, hkept, hworks⟩ := live_changing hstart happenings
  obtain ⟨hwritten, htext, -⟩ := hcommit _ hentry _ (.inr (.inl rfl))
  obtain ⟨hcut, hcleared⟩ := hclear _ (.inr ⟨hcopy, rfl⟩)
  have hpasted : w.paste.1 = true := by
    refine (hworks _ hread).1.2 ?_
    rw [hactive]
    exact ⟨by decide +kernel, by decide +kernel⟩
  exact ⟨hstart, hentry, hcopy, ⟨hwritten, htext⟩, ⟨hcut, hcleared ⟨0, 0⟩⟩, hpaste, hpasted,
    hkept hpasted⟩

end Workspace

end Spreadsheet
