import Spreadsheet.Selection

/-!
# Spreadsheet.Proofs.Selection.Activity — what the user is doing after each operation

An edit begins with `startEdit` and a drag with a press, and each operation says which of them it
lets go on.  Operations that only select leave the activity as it is.
-/

namespace Spreadsheet

/-- Nothing new has begun: what went on goes on, or it has come to an end. -/
def Activity.GoesOn (before after : Activity) : Prop := after = before ∨ after = .idle

namespace Selection

variable {s : Selection} {p a : Position} {entry : CellEdit}

theorem entry?_eq_some_iff : s.entry? = some entry ↔ s.activity = .editing entry := by
  unfold entry?
  cases ha : s.activity <;> simp

theorem isEditing_iff : s.isEditing = true ↔ ∃ entry, s.activity = .editing entry := by
  rw [isEditing, Option.isSome_iff_exists]
  simp only [entry?_eq_some_iff]

@[simp] theorem step_activity (d : Direction) (shift : Bool) (dims : Dimensions) :
    (s.step d shift dims).activity = s.activity := rfl

@[simp] theorem drag_activity (p : Position) : (s.drag p).activity = s.activity := by
  cases ha : s.activity <;> simp [drag, ha]

theorem dropEdit_goesOn : s.activity.GoesOn s.dropEdit.activity := by
  cases ha : s.activity <;> simp [Activity.GoesOn, dropEdit, ha]

theorem takeEdit_goesOn : s.activity.GoesOn s.takeEdit.2.activity := by
  cases ha : s.activity <;> simp [Activity.GoesOn, takeEdit, ha]

theorem release_goesOn : s.activity.GoesOn s.release.activity := by
  cases ha : s.activity <;> simp [Activity.GoesOn, release, ha]

/-! ### Editing -/

@[simp] theorem startEdit_activity (text : String) :
    (s.startEdit text).activity = .editing ⟨s.active, TextField.ofText text⟩ := rfl

@[simp] theorem dropEdit_ne_editing : s.dropEdit.activity ≠ .editing entry := by
  cases ha : s.activity <;> simp [dropEdit, ha]

@[simp] theorem takeEdit_ne_editing : s.takeEdit.2.activity ≠ .editing entry := by
  cases ha : s.activity <;> simp [takeEdit, ha]

theorem press_ne_editing (shift : Bool) (h : s.activity ≠ .editing entry) :
    (s.press p shift).activity ≠ .editing entry := by
  cases shift <;> simp [press, h]

theorem release_of_editing (h : s.activity = .editing entry) : s.release = s := by
  simp [release, h]

theorem drag_of_editing (h : s.activity = .editing entry) (p : Position) : s.drag p = s := by
  simp [drag, h]

theorem edit_of_editing (h : s.activity = .editing entry) (f : TextField → TextField) :
    s.edit f = { s with activity := .editing { entry with field := f entry.field } } := by
  simp [edit, h]

theorem edit_of_not_editing (h : ∀ entry, s.activity ≠ .editing entry)
    (f : TextField → TextField) : s.edit f = s := by
  cases ha : s.activity <;> simp_all [edit]

/-! ### Dragging -/

theorem drag_of_dragging (h : s.activity = .dragging a) (p : Position) :
    s.drag p = { s with range := some ⟨a, p⟩ } := by
  simp [drag, h]

theorem drag_of_not_dragging (h : ∀ a, s.activity ≠ .dragging a) (p : Position) : s.drag p = s := by
  cases ha : s.activity <;> simp_all [drag]

/-- Only a drag under way draws a range. -/
theorem drag_cases (s : Selection) (p : Position) :
    s.drag p = s ∨ ∃ a, s.activity = .dragging a ∧ s.drag p = { s with range := some ⟨a, p⟩ } := by
  by_cases h : ∃ a, s.activity = .dragging a
  · obtain ⟨a, ha⟩ := h
    exact .inr ⟨a, ha, drag_of_dragging ha p⟩
  · exact .inl (drag_of_not_dragging (not_exists.1 h) p)

@[simp] theorem release_ne_dragging : s.release.activity ≠ .dragging a := by
  cases ha : s.activity <;> simp [release, ha]

@[simp] theorem edit_dragging (f : TextField → TextField) :
    (s.edit f).activity = .dragging a ↔ s.activity = .dragging a := by
  cases ha : s.activity <;> simp [edit, ha]

@[simp] theorem dropEdit_dragging : s.dropEdit.activity = .dragging a ↔ s.activity = .dragging a := by
  cases ha : s.activity <;> simp [dropEdit, ha]

@[simp] theorem takeEdit_dragging :
    s.takeEdit.2.activity = .dragging a ↔ s.activity = .dragging a := by
  cases ha : s.activity <;> simp [takeEdit, ha]

end Selection

end Spreadsheet
