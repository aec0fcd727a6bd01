import Mathlib.Data.List.Induction
import Spreadsheet.Proofs.Interchange.Copying
import Spreadsheet.Proofs.Workspace.Dragging
import Spreadsheet.Proofs.Workspace.Growing

/-!
# Spreadsheet.Proofs.Workspace.Straying — when the active cell lies outside the range

Every gesture that selects a range puts the active cell into it, except a drag: that draws the range
from the cell of the press with which it began, and the active cell may have been moved since by a
key, the wheel or a press with shift.  `live_strays_iff` says that there is no other way.
-/

namespace Spreadsheet

theorem Range.contains_start (r : Range) : r.contains r.start = true := by
  rw [contains_iff]
  omega

theorem Range.contains_stop (r : Range) : r.contains r.stop = true := by
  rw [contains_iff]
  omega

namespace Selection

section Defs

/-- A range is selected and the active cell lies outside it. -/
def Strays (s : Selection) : Prop := ∃ r, s.range = some r ∧ r.contains s.active = false

/-- The same cell is active and the same range is selected, whatever the user is doing. -/
def Alike (s s' : Selection) : Prop := s'.active = s.active ∧ s'.range = s.range

end Defs

variable {s s' : Selection} {d : Dimensions}

theorem Alike.refl (s : Selection) : s.Alike s := ⟨rfl, rfl⟩

theorem Alike.strays (h : s.Alike s') (hs : s'.Strays) : s.Strays := by
  obtain ⟨hactive, hrange⟩ := h
  obtain ⟨r, hr, hout⟩ := hs
  exact ⟨r, hrange ▸ hr, hactive ▸ hout⟩

/-- A selection whose range has the active cell for a corner does not stray. -/
theorem not_strays_of_corner (h : ∀ r, s.range = some r → s.active = r.start ∨ s.active = r.stop) :
    ¬ s.Strays := by
  rintro ⟨r, hr, hout⟩
  rcases h r hr with hactive | hactive <;> rw [hactive] at hout
  · rw [r.contains_start] at hout
    cases hout
  · rw [r.contains_stop] at hout
    cases hout

/-! ### Gestures that leave the selected cells as they are -/

theorem edit_alike (f : TextField → TextField) : s.Alike (s.edit f) := by
  cases ha : s.activity <;> simp [Alike, edit, ha]

theorem dropEdit_alike : s.Alike s.dropEdit := by
  cases ha : s.activity <;> simp [Alike, dropEdit, ha]

theorem release_alike : s.Alike s.release := by
  cases ha : s.activity <;> simp [Alike, release, ha]

/-- On the sheet there is nothing to confine. -/
theorem Within.confine_eq (h : s.Within d) : s.confine d = s := by
  have hrange : (s.range.map fun r => Range.mk (d.nearest r.start) (d.nearest r.stop)) = s.range := by
    cases hr : s.range with
    | none => rfl
    | some r =>
      obtain ⟨hstart, hstop⟩ := h.range r hr
      rw [Option.map_some, Dimensions.nearest_eq_self hstart, Dimensions.nearest_eq_self hstop]
  unfold Selection.confine
  rw [hrange, Dimensions.nearest_eq_self h.active]

/-! ### Gestures that select -/

theorem not_strays_step (dir : Direction) (shift : Bool) : ¬ (s.step dir shift d).Strays := by
  refine not_strays_of_corner fun r hr => ?_
  cases shift with
  | false => cases hr
  | true =>
    obtain rfl := Option.some.inj hr
    exact .inr rfl

theorem not_strays_press (p : Position) (shift : Bool) : ¬ (s.press p shift).Strays := by
  refine not_strays_of_corner fun r hr => .inr ?_
  cases shift <;> obtain rfl := Option.some.inj hr <;> rfl

theorem not_strays_choose (r : Range) : ¬ (s.choose r).Strays := by
  refine not_strays_of_corner fun r' hr => ?_
  obtain rfl := Option.some.inj hr
  exact .inl rfl

/-- The whole sheet has the active cell in it. -/
theorem not_strays_chooseAll (h : d.contains s.active = true) : ¬ (s.chooseAll d).Strays := by
  rintro ⟨r, hr, hout⟩
  obtain rfl := Option.some.inj hr
  have hin : (Range.mk ⟨0, 0⟩ d.last).contains s.active = true := by
    rw [Dimensions.contains_iff] at h
    simp only [Range.contains_iff, Dimensions.last]
    omega
  cases hout.symm.trans hin

theorem not_strays_of_none (h : s.range = none) : ¬ s.Strays := by
  rintro ⟨r, hr, -⟩
  rw [h] at hr
  cases hr

end Selection

namespace Workspace

variable {γ : Type} {w : Workspace γ} {h : Happening γ} {p : Position}

/-- With the left button down the pointer is moved over the cell `q`, and nothing lies over the grid;
the drag under way began on the cell `a`. -/
def DragsOver (w : Workspace γ) (a q : Position) : Happening γ → Prop
  | .pointer e width height =>
    w.mode = .normal ∧ e.action = .drag ∧ w.selection.activity = .dragging a ∧
      Screen.cellUnder w width height e.x e.y = some q
  | _ => False

/-! ### One thing happens -/

/-- A selection that strays has the cells that were selected before, or a drag has just been drawn. -/
theorem strays_selectionAfter (hw : IsPlaced w) (a : Action γ) (hs : (w.selectionAfter a).Strays) :
    w.selection.Alike (w.selectionAfter a) ∨ ∃ p, a = .drag p := by
  have htravel (step : Option Grid × History Grid) :
      w.selection.Alike (w.selectionAfterTravel step) := by
    unfold selectionAfterTravel
    split
    · rw [hw.selection.confine_eq]
      exact .refl _
    · exact .refl _
  have himport (path : String) (hs : (w.selectionAfterImport path).Strays) :
      w.selection.Alike (w.selectionAfterImport path) := by
    unfold selectionAfterImport at hs ⊢
    split at hs
    · exact absurd hs (Selection.not_strays_of_none rfl)
    · exact .refl _
  -- but for a drag, an action keeps the range and the active cell, or leaves no range that strays
  cases a with
  | editActive => exact absurd hs (Selection.not_strays_of_none rfl)
  | edit f => exact .inl (Selection.edit_alike f)
  | commitAndStep =>
    refine .inl ?_
    simp only [selectionAfter] at hs ⊢
    split at hs
    · exact absurd hs (Selection.not_strays_step _ _)
    · rename_i hidle
      rw [if_neg hidle]
      exact .refl _
  | dropEdit => exact .inl Selection.dropEdit_alike
  | step dir extend => exact absurd hs (Selection.not_strays_step dir extend)
  | chooseAll => exact absurd hs (Selection.not_strays_chooseAll hw.selection.active)
  | press p shift => exact absurd hs (Selection.not_strays_press _ shift)
  | drag p => exact .inr ⟨p, rfl⟩
  | release => exact .inl Selection.release_alike
  | paste =>
    refine .inl ?_
    simp only [selectionAfter] at hs ⊢
    cases hp : w.pasted? with
    | none => exact .refl _
    | some r =>
      rw [hp] at hs
      exact absurd hs (Selection.not_strays_choose r)
  | undo => exact .inl (htravel _)
  | redo => exact .inl (htravel _)
  | confirm =>
    refine .inl ?_
    simp only [selectionAfter] at hs ⊢
    split at hs
    · exact himport _ hs
    · exact .refl _
  | importTable path => exact .inl (himport path hs)
  | _ => exact .inl (.refl _)

theorem dragsOver_of_comesTo {a : Position} (hdrag : w.selection.activity = .dragging a)
    (hcomes : ComesTo w h (.drag p)) : DragsOver w a p h ∧ w.dims.nearest p = p := by
  cases h with
  | key key mods => cases hcomes
  | pointer e width height =>
    obtain ⟨hmode, ⟨_, _, _, hact⟩ | ⟨q, he, hunder, hact⟩ | ⟨_, hact⟩ | ⟨_, hact⟩ | ⟨_, hact⟩ |
        ⟨_, _, hact⟩⟩ := pointed?_eq_some hcomes
    case inr.inl =>
      obtain rfl := Action.drag.inj hact
      rw [← Screen.cellUnder_eq_some_iff] at hunder
      exact ⟨⟨hmode, he, hdrag, hunder⟩,
        Dimensions.nearest_eq_self (Screen.contains_of_cellUnder hunder)⟩
    all_goals cases hact
  | _ => cases hcomes

theorem DragsOver.dragging {a q : Position} (hover : DragsOver w a q h) :
    w.selection.activity = .dragging a := by
  cases h with
  | pointer e width height => exact hover.2.2.1
  | _ => cases hover

section Archives

variable [Archive γ]

/-- A plain press makes its cell the active one. -/
theorem PressesOn.active {a : Position} (hpress : PressesOn w a h) :
    (w.happen h).selection.active = a := by
  cases h with
  | pointer e width height =>
    obtain ⟨hmode, he, hshift, hunder⟩ := hpress
    have heq : w.happen (.pointer e width height) = w.press a false := by
      show w.usePointer e width height = _
      simp only [usePointer, if_pos hmode, he, Screen.cellUnder_eq_some_iff.1 hunder, hshift]
    rw [heq, press_selection w a false]
    exact Dimensions.nearest_eq_self (Screen.contains_of_cellUnder hunder)
  | _ => cases hpress

/-- A selection that strays has the cells that were selected before, or it has just been drawn by a
drag. -/
theorem strays_happen (hw : IsPlaced w) (hs : (w.happen h).selection.Strays) :
    w.selection.Alike (w.happen h).selection ∨
      ∃ a q, DragsOver w a q h ∧ (w.happen h).selection.range = some ⟨a, q⟩ ∧
        (w.happen h).selection.active = w.selection.active := by
  rcases happen_selection w h with ⟨heq, -⟩ | ⟨act, hcomes, heq, -⟩ <;> rw [heq] at hs ⊢
  · exact .inl (.refl _)
  · rcases strays_selectionAfter hw act hs with halike | ⟨p, rfl⟩
    · exact .inl halike
    · have hdrag : w.selectionAfter (.drag p) = w.selection.drag (w.dims.nearest p) := rfl
      rw [hdrag]
      rcases w.selection.drag_cases (w.dims.nearest p) with hsame | ⟨a, ha, hdrawn⟩
      · rw [hsame]
        exact .inl (.refl _)
      · obtain ⟨hover, hnearest⟩ := dragsOver_of_comesTo ha hcomes
        rw [hdrawn, hnearest]
        exact .inr ⟨a, p, hover, rfl, rfl⟩

/-! ### Runs -/

/-- Behind a selection that strays there is the drag that drew its range past the active cell. -/
theorem exists_drag_of_strays (hw : IsPlaced w) (hstart : ¬ w.selection.Strays)
    {hs : List (Happening γ)} (hstrays : (w.live hs).selection.Strays) :
    ∃ before drag after a q, hs = before ++ drag :: after ∧ DragsOver (w.live before) a q drag ∧
      (w.live hs).selection.range = some ⟨a, q⟩ ∧
      (w.live hs).selection.active = (w.live before).selection.active := by
  induction hs using List.reverseRecOn with
  | nil => exact absurd hstrays hstart
  | append_singleton hs h ih =>
    have hlive : w.live (hs ++ [h]) = (w.live hs).happen h := live_append w hs [h]
    rw [hlive] at hstrays ⊢
    rcases strays_happen (hw.live hs) hstrays with halike | ⟨a, q, hover, hrange, hactive⟩
    · obtain ⟨before, drag, after, a, q, rfl, hover, hrange, hactive⟩ := ih (halike.strays hstrays)
      refine ⟨before, drag, after ++ [h], a, q, ?_, hover, halike.2.trans hrange,
        halike.1.trans hactive⟩
      rw [List.append_assoc, List.cons_append]
    · exact ⟨hs, h, [], a, q, rfl, hover, hrange, hactive⟩

/-- The active cell lies outside the range exactly if the range is the one drawn by an earlier drag,
from the cell of the plain press with which the drag began, and the active cell is the one of that
moment, which had been moved since the press to a cell outside that range. -/
theorem live_strays_iff {o : Options} {archive : γ} {files : FileSystem}
    (hstart : WordsStart o archive files) (hs : List (Happening γ)) :
    let start := Workspace.open o archive files
    let w := start.live hs
    w.selection.Strays ↔
      ∃ before press between drag after a q,
        hs = before ++ press :: (between ++ drag :: after) ∧
        PressesOn (start.live before) a press ∧
        ((start.live before).happen press).selection.active = a ∧
        DragsOver (start.live (before ++ press :: between)) a q drag ∧
        w.selection.range = some ⟨a, q⟩ ∧
        w.selection.active = (start.live (before ++ press :: between)).selection.active ∧
        Range.contains ⟨a, q⟩ w.selection.active = false := by
  intro start w
  have hfresh : start.selection = Selection.start := by
    obtain ⟨grid, dims, message, stopped, he⟩ := open_eq o archive files
    rw [show start = _ from he]
    rfl
  constructor
  · intro hstrays
    -- no range strays at the beginning
    have hcalm : ¬ start.selection.Strays := by
      rw [hfresh]
      exact Selection.not_strays_of_none rfl
    obtain ⟨earlier, drag, after, a, q, hsplit, hover, hrange, hactive⟩ :=
      exists_drag_of_strays hstart.isPlaced hcalm hstrays
    -- the drag under way then began with a press
    rcases exists_press_of_dragging hover.dragging with
      ⟨hidle, -⟩ | ⟨before, press, between, rfl, hpress, -⟩
    · rw [hfresh] at hidle
      cases hidle
    · refine ⟨before, press, between, drag, after, a, q, ?_, hpress, hpress.active, hover, hrange,
        hactive, ?_⟩
      · rw [hsplit, List.append_assoc, List.cons_append]
      · obtain ⟨r, hr, hout⟩ := hstrays
        obtain rfl := Option.some.inj (hr.symm.trans hrange)
        exact hout
  · rintro ⟨before, press, between, drag, after, a, q, -, -, -, -, hrange, -, hout⟩
    exact ⟨⟨a, q⟩, hrange, hout⟩

end Archives

/-! ### A key during a drag -/

/-- The button is pressed on the first cell of the sheet, the active cell steps down, and the pointer
goes on to the second cell of the first row. -/
def interruptedDrag : List (Happening MemoryArchive) :=
  [mouseAt .press 7 3, .key .down Modifiers.none, mouseAt .drag 18 3]

theorem live_strays_iff_interruptedDrag :
    let start := Workspace.open smallSheet MemoryArchive.empty .empty
    WordsStart smallSheet MemoryArchive.empty .empty ∧
      (start.live interruptedDrag).selection.Strays ∧
      ∃ before press between drag after a q,
        interruptedDrag = before ++ press :: (between ++ drag :: after) ∧
        PressesOn (start.live before) a press ∧
        DragsOver (start.live (before ++ press :: between)) a q drag := by
  intro start
  have hstart : WordsStart smallSheet MemoryArchive.empty .empty :=
    ⟨⟨by decide, by decide⟩, fun d hd => by cases hd⟩
  have hstrays : (start.live interruptedDrag).selection.Strays :=
    ⟨⟨⟨0, 0⟩, ⟨0, 1⟩⟩, by decide +kernel, by decide +kernel⟩
  obtain ⟨before, press, between, drag, after, a, q, hsplit, hpress, -, hover, -⟩ :=
    (live_strays_iff hstart interruptedDrag).1 hstrays
  exact ⟨hstart, hstrays, before, press, between, drag, after, a, q, hsplit, hpress, hover⟩

/-- The range is the first row, and the active cell lies below it. -/
theorem strays_interruptedDrag :
    let w := (Workspace.open smallSheet MemoryArchive.empty .empty).live interruptedDrag
    w.selection.active = ⟨1, 0⟩ ∧ w.selection.range = some ⟨⟨0, 0⟩, ⟨0, 1⟩⟩ ∧
      Range.contains ⟨⟨0, 0⟩, ⟨0, 1⟩⟩ w.selection.active = false := by
  decide +kernel

end Workspace

end Spreadsheet
