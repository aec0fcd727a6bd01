import Spreadsheet.Proofs.Grid.Within
import Spreadsheet.Selection

/-!
# Spreadsheet.Proofs.Selection.Within — the selection stays on the sheet

The active cell, both corners of the range, the corner where a drag began and the cell being edited
lie on the sheet, and every operation of the selection keeps them there.
-/

namespace Spreadsheet

/-- What the user is doing concerns cells on the sheet. -/
def Activity.Within (d : Dimensions) : Activity → Prop
  | idle => True
  | editing entry => d.contains entry.cell = true
  | dragging anchor => d.contains anchor = true

namespace Selection

/-- Everything that a selection names lies on the sheet. -/
structure Within (s : Selection) (d : Dimensions) : Prop where
  active : d.contains s.active = true
  range : ∀ r, s.range = some r → d.contains r.start = true ∧ d.contains r.stop = true
  activity : s.activity.Within d

variable {s : Selection} {d d' : Dimensions}

theorem within_start (d : Dimensions) : start.Within d where
  active := by
    have := d.rows_pos
    have := d.cols_pos
    simp only [Dimensions.contains_iff, start]
    omega
  range r hr := by cases hr
  activity := trivial

theorem Within.mono (h : s.Within d) (hd : d ≤ d') : s.Within d' where
  active := Dimensions.contains_mono hd h.active
  range r hr :=
    ⟨Dimensions.contains_mono hd (h.range r hr).1, Dimensions.contains_mono hd (h.range r hr).2⟩
  activity := by
    have ha := h.activity
    cases hs : s.activity <;> rw [hs] at ha
    · trivial
    · exact Dimensions.contains_mono hd ha
    · exact Dimensions.contains_mono hd ha

theorem Within.anchor (h : s.Within d) : d.contains s.anchor = true := by
  unfold Selection.anchor
  split
  · rename_i r hr
    exact (h.range r hr).1
  · exact h.active

theorem Within.entry (h : s.Within d) {entry : CellEdit} (he : s.entry? = some entry) :
    d.contains entry.cell = true := by
  have ha := h.activity
  unfold entry? at he
  split at he <;> rename_i hs
  · obtain rfl := Option.some.inj he
    rw [hs] at ha
    exact ha
  · cases he

/-- Putting the activity to rest. -/
theorem Within.idle (h : s.Within d) : Within { s with activity := .idle } d :=
  ⟨h.active, h.range, trivial⟩

theorem Within.press (h : s.Within d) {p : Position} (hp : d.contains p = true) (shift : Bool) :
    (s.press p shift).Within d := by
  unfold Selection.press
  split_ifs
  · refine ⟨hp, fun r hr => ?_, h.activity⟩
    obtain rfl := Option.some.inj hr
    exact ⟨h.anchor, hp⟩
  · refine ⟨hp, fun r hr => ?_, hp⟩
    obtain rfl := Option.some.inj hr
    exact ⟨hp, hp⟩

theorem Within.drag (h : s.Within d) {p : Position} (hp : d.contains p = true) :
    (s.drag p).Within d := by
  have ha := h.activity
  unfold Selection.drag
  split <;> rename_i hs
  · refine ⟨h.active, fun r hr => ?_, ha⟩
    obtain rfl := Option.some.inj hr
    rw [hs] at ha
    exact ⟨ha, hp⟩
  · exact h

theorem Within.release (h : s.Within d) : s.release.Within d := by
  unfold Selection.release
  split
  · exact h.idle
  · exact h

theorem contains_step (p : Position) (dir : Direction) (d : Dimensions) :
    d.contains (p.step dir d) = true := Dimensions.contains_nearest d _

theorem Within.step (h : s.Within d) (dir : Direction) (shift : Bool) :
    (s.step dir shift d).Within d := by
  have hnext := contains_step s.active dir d
  refine ⟨hnext, fun r hr => ?_, h.activity⟩
  simp only [Selection.step] at hr
  split_ifs at hr
  obtain rfl := Option.some.inj hr
  exact ⟨h.anchor, hnext⟩

theorem Within.chooseAll (h : s.Within d) : (s.chooseAll d).Within d := by
  refine ⟨h.active, fun r hr => ?_, h.activity⟩
  obtain rfl := Option.some.inj hr
  exact ⟨(within_start d).active, Dimensions.contains_last d⟩

theorem Within.choose (h : s.Within d) {r : Range} (hstart : d.contains r.start = true)
    (hstop : d.contains r.stop = true) : (s.choose r).Within d := by
  refine ⟨hstart, fun r' hr => ?_, h.activity⟩
  obtain rfl := Option.some.inj hr
  exact ⟨hstart, hstop⟩

theorem Within.startEdit (h : s.Within d) (text : String) : (s.startEdit text).Within d :=
  ⟨h.active, fun _ hr => (nomatch hr), h.active⟩

theorem Within.dropEdit (h : s.Within d) : s.dropEdit.Within d := by
  unfold Selection.dropEdit
  split
  · exact h.idle
  · exact h

theorem Within.edit (h : s.Within d) (f : TextField → TextField) : (s.edit f).Within d := by
  have ha := h.activity
  unfold Selection.edit
  split <;> rename_i hs
  · rw [hs] at ha
    exact ⟨h.active, h.range, ha⟩
  · exact h

theorem Within.confine (h : s.Within d) : (s.confine d).Within d := by
  refine ⟨Dimensions.contains_nearest d _, fun r hr => ?_, h.activity⟩
  obtain ⟨r', -, rfl⟩ := Option.map_eq_some_iff.1 hr
  exact ⟨Dimensions.contains_nearest d _, Dimensions.contains_nearest d _⟩

end Selection

end Spreadsheet
