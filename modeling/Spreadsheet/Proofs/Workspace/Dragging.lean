import Spreadsheet.Proofs.Run
import Spreadsheet.Proofs.Screen.Pointing
import Spreadsheet.Proofs.Workspace.Selecting

/-!
# Spreadsheet.Proofs.Workspace.Dragging — how a drag begins and ends

A drag begins with a plain press on a cell, and a release ends it — unless help or a prompt lies over
the grid.  Then the release is missed, and the drag goes on once the grid lies open again.
-/

namespace Spreadsheet

namespace Workspace

variable {γ : Type}

/-! ### Presses, drags and releases -/

section Defs

/-- Whether the left button is released. -/
def Happening.isRelease : Happening γ → Bool
  | .pointer e _ _ => e.action = .release
  | _ => false

/-- Whether the pointer is moved with the left button down. -/
def Happening.isDrag : Happening γ → Bool
  | .pointer e _ _ => e.action = .drag
  | _ => false

/-- The left button is pressed on the cell `p`, without shift and with nothing over the grid. -/
def PressesOn (w : Workspace γ) (p : Position) : Happening γ → Prop
  | .pointer e width height =>
    w.mode = .normal ∧ e.action = .press ∧ e.mods.shift = false ∧
      Screen.cellUnder w width height e.x e.y = some p
  | _ => False

/-- If this is a release, something lies over the grid and it is missed. -/
def MissesRelease (w : Workspace γ) (h : Happening γ) : Prop := h.isRelease = true → w.mode ≠ .normal

end Defs

variable {w : Workspace γ} {h : Happening γ} {act : Action γ} {a p : Position}

/-- Where nothing lies over the grid, a release comes to `release`. -/
theorem eq_release_of_comesTo (hrelease : h.isRelease = true) (hcomes : ComesTo w h act) :
    act = .release := by
  cases h with
  | pointer e width height =>
    have he : e.action = .release := of_decide_eq_true hrelease
    obtain ⟨-, ⟨_, he', -⟩ | ⟨_, he', -⟩ | ⟨-, hact⟩ | ⟨he', -⟩ | ⟨he', -⟩ | ⟨he' | he', -⟩⟩ :=
      pointed?_eq_some hcomes
    case inr.inr.inl => exact hact
    all_goals cases he'.symm.trans he
  | _ => cases hrelease

/-- Moving the pointer with the button down comes to `drag`, or no cell can be told at its point. -/
theorem exists_drag_of_comesTo (hdrag : h.isDrag = true) (hcomes : ComesTo w h act) :
    (∃ p, act = .drag p) ∨ act = .stop := by
  cases h with
  | pointer e width height =>
    have he : e.action = .drag := of_decide_eq_true hdrag
    obtain ⟨-, ⟨_, he', -⟩ | ⟨p, -, -, hact⟩ | ⟨he', -⟩ | ⟨he', -⟩ | ⟨he', -⟩ | ⟨-, -, hact⟩⟩ :=
      pointed?_eq_some hcomes
    case inr.inl => exact .inl ⟨p, hact⟩
    case inr.inr.inr.inr.inr => exact .inr hact
    all_goals cases he'.symm.trans he
  | _ => cases hdrag

theorem not_pressesOn_of_isRelease (hrelease : h.isRelease = true) (p : Position) :
    ¬ PressesOn w p h := by
  intro hpress
  cases h with
  | pointer e width height =>
    have he : e.action = .release := of_decide_eq_true hrelease
    cases hpress.2.1.symm.trans he
  | _ => cases hrelease

theorem pressesOn_of_comesTo (hcomes : ComesTo w h (.press p false)) :
    PressesOn w p h ∧ w.dims.nearest p = p := by
  cases h with
  | key key mods => cases hcomes
  | pointer e width height =>
    obtain ⟨hmode, ⟨q, he, hunder, hact⟩ | ⟨_, _, _, hact⟩ | ⟨_, hact⟩ | ⟨_, hact⟩ | ⟨_, hact⟩ |
        ⟨_, _, hact⟩⟩ := pointed?_eq_some hcomes
    · obtain ⟨rfl, hshift⟩ := Action.press.inj hact
      rw [← Screen.cellUnder_eq_some_iff] at hunder
      exact ⟨⟨hmode, he, hshift.symm, hunder⟩,
        Dimensions.nearest_eq_self (Screen.contains_of_cellUnder hunder)⟩
    all_goals cases hact
  | _ => cases hcomes

section Archives

variable [Archive γ]

/-! ### One thing happens -/

/-- A release ends the drag unless it is missed. -/
theorem missesRelease_of_dragging (hdrag : (w.happen h).selection.activity = .dragging a) :
    MissesRelease w h := by
  intro hrelease hmode
  rcases happen_selection w h with ⟨-, -, hnone⟩ | ⟨act, hcomes, hs, -⟩
  · cases h with
    | pointer e width height =>
      have he : e.action = .release := of_decide_eq_true hrelease
      have hpointed := hnone e width height rfl
      simp [pointed?, hmode, he] at hpointed
    | _ => cases hrelease
  · obtain rfl := eq_release_of_comesTo hrelease hcomes
    rw [hs] at hdrag
    exact Selection.release_ne_dragging hdrag

/-- What is being dragged was dragged before, or it has just been pressed on. -/
theorem dragging_happen (hdrag : (w.happen h).selection.activity = .dragging a) :
    (w.selection.activity = .dragging a ∧ MissesRelease w h) ∨ PressesOn w a h := by
  have hmisses := missesRelease_of_dragging hdrag
  rcases happen_selection w h with ⟨hs, -⟩ | ⟨act, hcomes, hs, -⟩ <;> rw [hs] at hdrag
  · exact .inl ⟨hdrag, hmisses⟩
  · rcases activity_after w act with (hgoes | hgoes) | rfl | ⟨f, rfl⟩ | ⟨p, rfl, hgoes⟩
    · exact .inl ⟨hgoes.symm.trans hdrag, hmisses⟩
    · cases hgoes.symm.trans hdrag
    · cases hdrag
    · exact .inl ⟨(Selection.edit_dragging f).1 hdrag, hmisses⟩
    · obtain ⟨hpress, hnearest⟩ := pressesOn_of_comesTo hcomes
      obtain rfl := Activity.dragging.inj (hgoes.symm.trans hdrag)
      rw [hnearest]
      exact .inr hpress

/-- A release ends the drag exactly if nothing lies over the grid. -/
theorem release_happen (hrelease : h.isRelease = true) (a : Position) :
    (w.happen h).selection.activity = .dragging a ↔
      w.selection.activity = .dragging a ∧ w.mode ≠ .normal := by
  constructor
  · intro hdrag
    rcases dragging_happen hdrag with ⟨hdragged, hmisses⟩ | hpress
    · exact ⟨hdragged, hmisses hrelease⟩
    · exact absurd hpress (not_pressesOn_of_isRelease hrelease a)
  · rintro ⟨hdragged, hmode⟩
    cases h with
    | pointer e width height =>
      have hmissed : w.happen (.pointer e width height) = w := if_neg hmode
      rwa [hmissed]
    | _ => cases hrelease

/-- Only a drag under way moves the range, and it moves it to reach from its anchor. -/
theorem drag_happen (hdrag : h.isDrag = true)
    (hmoves : (w.happen h).selection.range ≠ w.selection.range) :
    ∃ a q, w.selection.activity = .dragging a ∧ (w.happen h).selection.range = some ⟨a, q⟩ := by
  rcases happen_selection w h with ⟨hs, -⟩ | ⟨act, hcomes, hs, -⟩ <;> rw [hs] at hmoves ⊢
  · exact absurd rfl hmoves
  · obtain ⟨p, rfl⟩ | rfl := exists_drag_of_comesTo hdrag hcomes
    case inr => exact absurd rfl hmoves
    rcases w.selection.drag_cases (w.dims.nearest p) with hsame | ⟨a, ha, hdrawn⟩
    · exact absurd (congrArg Selection.range hsame) hmoves
    · exact ⟨a, w.dims.nearest p, ha, congrArg Selection.range hdrawn⟩

/-! ### Runs -/

/-- A drag that is under way was so before the run, or it began with a press in the run; every
release since then was missed. -/
theorem exists_press_of_dragging {hs : List (Happening γ)}
    (hdrag : (w.live hs).selection.activity = .dragging a) :
    (w.selection.activity = .dragging a ∧ Run.Along happen MissesRelease w hs) ∨
      ∃ before press after, hs = before ++ press :: after ∧ PressesOn (w.live before) a press ∧
        Run.Along happen MissesRelease (w.live (before ++ [press])) after := by
  induction hs generalizing w with
  | nil => exact .inl ⟨hdrag, trivial⟩
  | cons h hs ih =>
    -- The drag comes from behind `h`, or it was under way after `h`: then `h` began it or let it go on.
    rcases ih hdrag with ⟨hdragged, halong⟩ | ⟨before, press, after, rfl, hpress, halong⟩
    · rcases dragging_happen hdragged with ⟨hdragged, hmisses⟩ | hpress
      · exact .inl ⟨hdragged, hmisses, halong⟩
      · exact .inr ⟨[], h, hs, rfl, hpress, halong⟩
    · exact .inr ⟨h :: before, press, after, rfl, hpress, halong⟩

/-- After a release the user is dragging exactly if he was before and the release was missed because
help or a prompt lay over the grid.  So whenever a drag moves the range, it reaches from the cell of
an earlier plain press, and every release since then was missed. -/
theorem live_dragging (o : Options) (archive : γ) (files : FileSystem) (hs : List (Happening γ))
    (h : Happening γ) :
    let start := Workspace.open o archive files
    let w := start.live hs
    (h.isRelease = true → ∀ a, (w.happen h).selection.activity = .dragging a ↔
      w.selection.activity = .dragging a ∧ w.mode ≠ .normal) ∧
    (h.isDrag = true → (w.happen h).selection.range ≠ w.selection.range →
      ∃ a q before press after, (w.happen h).selection.range = some ⟨a, q⟩ ∧
        hs = before ++ press :: after ∧ PressesOn (start.live before) a press ∧
        Run.Along happen MissesRelease (start.live (before ++ [press])) after) := by
  intro start w
  have hidle (a : Position) : start.selection.activity ≠ .dragging a := by
    obtain ⟨grid, dims, message, stopped, he⟩ := open_eq o archive files
    rw [show start = _ from he]
    exact nofun
  -- a drag moves the range only while one is under way, and that began with a press
  refine ⟨release_happen, fun hdrag hmoves => ?_⟩
  obtain ⟨a, q, hdragged, hrange⟩ := drag_happen hdrag hmoves
  rcases exists_press_of_dragging hdragged with ⟨hstart, -⟩ | ⟨before, press, after, hpress⟩
  · exact absurd hstart (hidle a)
  · exact ⟨a, q, before, press, after, hrange, hpress⟩

end Archives

/-! ### A release over the help text -/

/-- A drag from the first cell to the last of a small sheet, and its end. -/
theorem live_dragging_smallSheet :
    let start := Workspace.open smallSheet MemoryArchive.empty .empty
    let press : Happening MemoryArchive := mouseAt .press 7 3
    let drag : Happening MemoryArchive := mouseAt .drag 18 4
    let release : Happening MemoryArchive := mouseAt .release 18 4
    drag.isDrag = true ∧ release.isRelease = true ∧
      ((start.live [press]).happen drag).selection.range ≠ (start.live [press]).selection.range ∧
      (∃ a q, ((start.live [press]).happen drag).selection.range = some ⟨a, q⟩ ∧
        PressesOn start a press) ∧
      ∀ a, ((start.live [press, drag]).happen release).selection.activity ≠ .dragging a := by
  intro start press drag release
  have hdrag : drag.isDrag = true := rfl
  have hrelease : release.isRelease = true := rfl
  have hmoves : ((start.live [press]).happen drag).selection.range
      ≠ (start.live [press]).selection.range := by decide +kernel
  have hmode : (start.live [press, drag]).mode = .normal := by decide +kernel
  have hends := (live_dragging smallSheet MemoryArchive.empty .empty [press, drag] release).1 hrelease
  obtain ⟨a, q, before, pressed, after, hrange, hsplit, hpress, -⟩ :=
    (live_dragging smallSheet MemoryArchive.empty .empty [press] drag).2 hdrag (by decide +kernel)
  obtain ⟨rfl, rfl, rfl⟩ : before = [] ∧ pressed = press ∧ after = [] := by
    cases before with
    | nil =>
      obtain ⟨hfirst, hrest⟩ := List.cons.inj hsplit
      exact ⟨rfl, hfirst.symm, hrest.symm⟩
    | cons e before => simp at hsplit
  exact ⟨hdrag, hrelease, hmoves, ⟨a, q, hrange, hpress⟩,
    fun a hdragged => ((hends a).1 hdragged).2 hmode⟩

/-- The button is pressed on the first cell and released over the help text: the drag goes on, and
when the help is closed the range follows the pointer without another press. -/
theorem release_missed_over_help :
    let w := (Workspace.open smallSheet MemoryArchive.empty .empty).live
      [mouseAt .press 7 3, .key (.function 1) Modifiers.none]
    let release : Happening MemoryArchive := mouseAt .release 7 3
    let released := w.happen release
    let back := released.happen (.key .escape Modifiers.none)
    release.isRelease = true ∧ released.selection.activity = .dragging ⟨0, 0⟩ ∧
      back.selection.range = some ⟨⟨0, 0⟩, ⟨0, 0⟩⟩ ∧
      (back.happen (mouseAt .drag 18 4)).selection.range = some ⟨⟨0, 0⟩, ⟨1, 1⟩⟩ := by
  decide +kernel

end Workspace

end Spreadsheet
