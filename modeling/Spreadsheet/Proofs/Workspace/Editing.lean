import Spreadsheet.Proofs.Selection.Activity
import Spreadsheet.Proofs.Workspace.Selecting
import Spreadsheet.Screen.Render

/-!
# Spreadsheet.Proofs.Workspace.Editing — the active cell during an edit

While a cell is edited there is no range, and nothing lies over the grid.  Keys go to the edited
text, and a press of the pointer ends the edit first; but the wheel still moves the active cell,
away from the cell that is edited.  `wheelSteps` follows the wheel through a run: the active cell is
where its steps since the beginning of the edit have led.
-/

namespace Spreadsheet

namespace Workspace

variable {γ : Type}

/-! ### The wheel -/

/-- The step that the wheel makes. -/
def Happening.wheel? : Happening γ → Option Direction
  | .pointer e _ _ =>
    match e.action with
    | .wheelDown => some .down
    | .wheelUp => some .up
    | _ => none
  | _ => none

/-- Where steps lead. -/
def walk (dims : Dimensions) (p : Position) (ds : List Direction) : Position :=
  ds.foldl (fun p d => p.step d dims) p

/-- The cell that was edited is `cell`; since then, `steps` have led to the active one. -/
structure EditedAt (cell : Position) (steps : List Direction) (w : Workspace γ) : Prop where
  mode : w.mode = .normal
  range : w.selection.range = none
  active : w.selection.active = walk w.dims cell steps

/-- If a cell is edited, `steps` have led from it to the active one. -/
def EditFollows (steps : List Direction) (w : Workspace γ) : Prop :=
  ∀ entry, w.selection.activity = .editing entry → EditedAt entry.cell steps w

variable {w w' : Workspace γ} {h : Happening γ} {a : Action γ} {entry : CellEdit} {cell : Position}
  {steps : List Direction}

theorem EditedAt.frame (hw : EditedAt cell steps w) (hm : w'.mode = w.mode) (hd : w'.dims = w.dims)
    (hr : w'.selection.range = w.selection.range) (ha : w'.selection.active = w.selection.active) :
    EditedAt cell steps w' where
  mode := hm.trans hw.mode
  range := hr.trans hw.range
  active := by rw [ha, hd, hw.active]

/-- The wheel moves the active cell and nothing else of the edit. -/
theorem EditedAt.step (hw : EditedAt cell steps w) (d : Direction) :
    EditedAt cell (steps ++ [d]) (w.step d false) where
  mode := hw.mode
  range := rfl
  active := by
    show w.selection.active.step d w.dims = walk w.dims cell (steps ++ [d])
    rw [hw.active, walk, walk, List.foldl_append]
    rfl

/-- Where nothing lies over the grid, the wheel does not turn without effect. -/
theorem wheel?_eq_none (hmode : w.mode = .normal)
    (hnone : ∀ e width height, h = .pointer e width height → w.pointed? e width height = none) :
    h.wheel? = none := by
  cases h with
  | pointer e width height =>
    have hpointed := hnone e width height rfl
    unfold pointed? at hpointed
    rw [if_pos hmode] at hpointed
    cases he : e.action <;> simp_all [Happening.wheel?]
  | _ => rfl

/-- Edits begin in the grid. -/
theorem mode_of_comesTo_editActive (hcomes : ComesTo w h .editActive) : w.mode = .normal := by
  cases h with
  | key key mods =>
    have htyped : (!w.selection.isEditing && decide (w.mode = .normal)) = true := hcomes
    simpa using (Bool.and_eq_true_iff.1 htyped).2
  | pointer e width height => exact (pointed?_eq_some hcomes).1
  | _ => cases hcomes

section Archives

variable [Archive γ]

/-! ### While a cell is edited -/

/-- Keys change the text or end the edit. -/
theorem EditFollows.typed (hw : EditFollows steps w) (hedit : w.selection.activity = .editing entry)
    (ha : w.isTyped a = true) : EditFollows steps (w.act a) := by
  have hediting : w.selection.isEditing = true := Selection.isEditing_iff.2 ⟨entry, hedit⟩
  intro after hafter
  rw [act_selection w a] at hafter
  cases a with
  | edit f =>
    have hs : (w.act (.edit f)).selection
        = { w.selection with activity := .editing { entry with field := f entry.field } } :=
      Selection.edit_of_editing hedit f
    simp only [selectionAfter, Selection.edit_of_editing hedit, Activity.editing.injEq] at hafter
    obtain rfl := hafter
    exact (hw entry hedit).frame rfl rfl (by rw [hs]) (by rw [hs])
  | commitAndStep => simp [selectionAfter, hediting] at hafter
  | dropEdit => simp [selectionAfter] at hafter
  | _ => simp [isTyped, hediting] at ha

/-- A press ends the edit, the wheel makes its step, and the pointer does nothing else. -/
theorem EditFollows.pointed (hw : EditFollows steps w)
    (hedit : w.selection.activity = .editing entry) {e : PointerEvent} {width height : Nat}
    (ha : w.pointed? e width height = some a) :
    EditFollows (steps ++ (Happening.wheel? (γ := γ) (.pointer e width height)).toList) (w.act a) := by
  intro after hafter
  obtain ⟨-, ⟨p, he, -, rfl⟩ | ⟨p, he, -, rfl⟩ | ⟨he, rfl⟩ | ⟨he, rfl⟩ | ⟨he, rfl⟩ |
    ⟨he | he, -, rfl⟩⟩ := pointed?_eq_some ha <;>
      simp only [Happening.wheel?, he, Option.toList_none, Option.toList_some, List.append_nil]
  · -- the edit is committed, and nothing is edited after that
    rw [act_selection w _] at hafter
    exact absurd hafter (Selection.press_ne_editing _ Selection.takeEdit_ne_editing)
  · have hs : (w.act (.drag p)).selection = w.selection := Selection.drag_of_editing hedit _
    rw [hs] at hafter
    exact (hw after hafter).frame rfl rfl (congrArg _ hs) (congrArg _ hs)
  · have hs : (w.act .release).selection = w.selection := Selection.release_of_editing hedit
    rw [hs] at hafter
    exact (hw after hafter).frame rfl rfl (congrArg _ hs) (congrArg _ hs)
  · exact (hw after hafter).step .down
  · exact (hw after hafter).step .up
  -- no cell can be told at the point, and the edit stays as it is
  · exact (hw after hafter).frame rfl rfl rfl rfl
  · exact (hw after hafter).frame rfl rfl rfl rfl

/-- What happens to an edit that is in progress. -/
theorem EditFollows.during (hw : EditFollows steps w)
    (hedit : w.selection.activity = .editing entry) (h : Happening γ) :
    EditFollows (steps ++ h.wheel?.toList) (w.happen h) := by
  have hediting : w.selection.isEditing = true := Selection.isEditing_iff.2 ⟨entry, hedit⟩
  -- what touches neither the selection, the mode nor the size leaves the edit where it is
  have hsame {v : Workspace γ} (hs : v.selection = w.selection) (hm : v.mode = w.mode)
      (hd : v.dims = w.dims) : EditFollows (steps ++ []) v := by
    intro after hafter
    rw [hs] at hafter
    rw [List.append_nil]
    exact (hw after hafter).frame hm hd (by rw [hs]) (by rw [hs])
  rcases happen_cases w h with ⟨heq, hnone⟩ | ⟨a, hcomes, heq | ⟨hclear, -⟩⟩
  · rw [heq, wheel?_eq_none (hw entry hedit).mode hnone]
    exact hsame rfl rfl rfl
  · rw [heq]
    cases h with
    | key key mods =>
      show EditFollows (steps ++ []) _
      rw [List.append_nil]
      exact hw.typed hedit hcomes
    | pointer e width height => exact hw.pointed hedit hcomes
    | view rows cols =>
      obtain rfl := hcomes
      exact hsame rfl rfl rfl
    | tick now =>
      obtain rfl := hcomes
      have htouches := touchesOnly_tick w now
      exact hsame (htouches.same .selection (by decide)) (htouches.same .mode (by decide))
        (htouches.same .size (by decide))
    | outside archive files clipboard clock =>
      obtain rfl := hcomes
      exact hsame rfl rfl rfl
  · -- keys that clear the message do not reach the grid during an edit
    simp [isTyped, hediting] at hclear

/-! ### Where an edit begins -/

/-- An edit begins at the active cell. -/
theorem editFollows_start (hidle : w.selection.isEditing = false) (h : Happening γ) :
    EditFollows [] (w.happen h) := by
  have hnone : ∀ entry, w.selection.activity ≠ .editing entry := fun entry he => by
    rw [Selection.isEditing_iff.2 ⟨entry, he⟩] at hidle
    cases hidle
  intro entry hentry
  rcases happen_selection w h with ⟨hs, -⟩ | ⟨a, hcomes, hs, hm⟩
  · rw [hs] at hentry
    exact absurd hentry (hnone entry)
  · rw [hs] at hentry
    rcases activity_after w a with (hgoes | hgoes) | rfl | ⟨f, rfl⟩ | ⟨p, rfl, hgoes⟩
    · exact absurd (hgoes.symm.trans hentry) (hnone entry)
    · cases hgoes.symm.trans hentry
    · -- the edit begins here: the active cell is the edited one, and the range is gone
      obtain rfl := Activity.editing.inj hentry
      refine ⟨hm.trans (mode_of_comesTo_editActive hcomes), ?_, ?_⟩ <;> rw [hs]
      · rfl
      · rfl
    · exact absurd (Selection.edit_of_not_editing hnone f ▸ hentry) (hnone entry)
    · cases hgoes.symm.trans hentry

/-! ### Runs -/

/-- The steps of the wheel since the edit in progress has begun: `steps` are those before the run. -/
def wheelSteps : List Direction → Workspace γ → List (Happening γ) → List Direction
  | steps, _, [] => steps
  | steps, w, h :: hs =>
    wheelSteps (if w.selection.isEditing then steps ++ h.wheel?.toList else []) (w.happen h) hs

theorem EditFollows.happen (hw : EditFollows steps w) (h : Happening γ) :
    EditFollows (if w.selection.isEditing then steps ++ h.wheel?.toList else []) (w.happen h) := by
  cases hedit : w.selection.isEditing with
  | true =>
    obtain ⟨entry, he⟩ := Selection.isEditing_iff.1 hedit
    exact hw.during he h
  | false => exact editFollows_start hedit h

theorem EditFollows.live (hw : EditFollows steps w) (hs : List (Happening γ)) :
    EditFollows (wheelSteps steps w hs) (w.live hs) := by
  induction hs generalizing w steps with
  | nil => exact hw
  | cons h hs ih => exact ih (hw.happen h)

/-- Without the wheel nothing leads away from the edited cell. -/
theorem wheelSteps_eq_nil (w : Workspace γ) {hs : List (Happening γ)}
    (h : ∀ h ∈ hs, h.wheel? = none) : wheelSteps [] w hs = [] := by
  induction hs generalizing w with
  | nil => rfl
  | cons e hs ih =>
    have hfirst : e.wheel? = none := h e List.mem_cons_self
    rw [wheelSteps, hfirst]
    simpa using ih (w.happen e) fun e' he' => h e' (List.mem_cons_of_mem e he')

/-- While a cell is edited, whatever has happened before, there is no range, and a commit writes the
edited cell.  The cell that is active and drawn as the edited one is where the wheel has led since
the edit began: it is the edited cell if and only if the wheel's steps lead back to it, as they do if
it was left alone. -/
theorem live_editing (o : Options) (archive : γ) (files : FileSystem) (hs : List (Happening γ)) :
    let start := Workspace.open o archive files
    let w := start.live hs
    ∀ entry, w.selection.entry? = some entry →
      let here := walk w.dims entry.cell (wheelSteps [] start hs)
      w.selection.range = none ∧ w.commit.2.grid = w.grid.set entry.cell entry.field.text ∧
      w.selection.active = here ∧
      (∀ p v, (Screen.cellStyle w p v).underlined = true ↔ p = here) ∧
      ((∀ h ∈ hs, h.wheel? = none) → here = entry.cell) := by
  intro start w entry hentry here
  have hstart : EditFollows [] start := by
    obtain ⟨grid, dims, message, stopped, he⟩ := open_eq o archive files
    intro entry hactivity
    rw [show start = _ from he] at hactivity
    cases hactivity
  have hedit : w.selection.activity = .editing entry := Selection.entry?_eq_some_iff.1 hentry
  have hediting : w.selection.isEditing = true := Selection.isEditing_iff.2 ⟨entry, hedit⟩
  obtain ⟨-, hrange, hactive⟩ := hstart.live hs entry hedit
  refine ⟨hrange, ?_, hactive, fun p v => ?_, fun hstill => ?_⟩
  · rw [commit_of_some hentry, change_grid]
  · have hhere : here = w.selection.active := hactive.symm
    simp only [Screen.cellStyle, hediting, hhere, Bool.and_true, decide_eq_true_iff]
  · show walk w.dims entry.cell (wheelSteps [] start hs) = entry.cell
    rw [wheelSteps_eq_nil start hstill]
    rfl

end Archives

/-! ### An edit that is left behind -/

/-- A text is typed into the first cell. -/
def typingRun : List (Happening MemoryArchive) :=
  [.key .enter Modifiers.none, .key (.char 'x') Modifiers.none]

/-- If the wheel is turned down and up again, the edited cell is active again. -/
theorem live_editing_typingRun :
    let start := Workspace.open smallSheet MemoryArchive.empty .empty
    let entry : CellEdit := ⟨⟨0, 0⟩, ⟨['x'], 1⟩⟩
    let v := start.live typingRun
    let w := start.live (typingRun ++ [mouseAt .wheelDown 10 5, mouseAt .wheelUp 10 5])
    v.selection.entry? = some entry ∧ (∀ h ∈ typingRun, h.wheel? = none) ∧
      v.selection.active = ⟨0, 0⟩ ∧
      w.selection.entry? = some entry ∧ w.selection.range = none ∧ w.selection.active = ⟨0, 0⟩ ∧
      (Screen.cellStyle w ⟨0, 0⟩ .empty).underlined = true ∧
      w.commit.2.grid.get? ⟨0, 0⟩ = some "x" := by
  intro start entry v w
  have htyped : v.selection.entry? = some entry := by decide +kernel
  have hstill : ∀ h ∈ typingRun, h.wheel? = none := by decide +kernel
  have hback : w.selection.entry? = some entry := by decide +kernel
  obtain ⟨-, -, hactive', -, hpinned⟩ :=
    live_editing smallSheet MemoryArchive.empty .empty typingRun entry htyped
  obtain ⟨hrange, -, hactive, hdrawn, -⟩ :=
    live_editing smallSheet MemoryArchive.empty .empty
      (typingRun ++ [mouseAt .wheelDown 10 5, mouseAt .wheelUp 10 5]) entry hback
  have hled : walk w.dims entry.cell
      (wheelSteps [] start (typingRun ++ [mouseAt .wheelDown 10 5, mouseAt .wheelUp 10 5]))
        = entry.cell := by decide +kernel
  exact ⟨htyped, hstill, hactive'.trans (hpinned hstill), hback, hrange, hactive.trans hled,
    (hdrawn _ _).2 hled.symm, by decide +kernel⟩

/-- After one turn of the wheel the first cell is still edited, and the one below it is active and
drawn as the edited one; the text goes to the first. -/
theorem wheel_leaves_edit :
    let w := (Workspace.open smallSheet MemoryArchive.empty .empty).live
      (typingRun ++ [mouseAt .wheelDown 10 5])
    w.selection.entry? = some ⟨⟨0, 0⟩, ⟨['x'], 1⟩⟩ ∧ w.selection.active = ⟨1, 0⟩ ∧
      (Screen.cellStyle w ⟨1, 0⟩ .empty).underlined = true ∧
      (Screen.cellStyle w ⟨0, 0⟩ .empty).underlined = false ∧
      w.commit.2.grid.get? ⟨0, 0⟩ = some "x" ∧ w.commit.2.grid.get? ⟨1, 0⟩ = none := by
  decide +kernel

end Workspace

end Spreadsheet
