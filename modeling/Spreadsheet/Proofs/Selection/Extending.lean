import Spreadsheet.Proofs.Selection.Within

/-!
# Spreadsheet.Proofs.Selection.Extending — the anchor of a selection that is extended

Nothing remembers the cell where an extended selection began: each step with an arrow key and each
press of the pointer takes it from the range that is there, if there is one.  `ExtendedFrom` says
that the range reaches from one cell to the active one, and every further extension keeps that cell.
-/

namespace Spreadsheet

namespace Selection

section Defs

/-- A way to another cell: a step with an arrow key or a press on the cell. -/
inductive Move where
  | arrow (d : Direction)
  | click (p : Position)
deriving DecidableEq, Repr

/-- Moves on; with shift the selection is extended. -/
def move (shift : Bool) (dims : Dimensions) (s : Selection) : Move → Selection
  | .arrow d => s.step d shift dims
  | .click p => s.press p shift

/-- Whether a move leads to a cell of the sheet; steps always do. -/
def Move.isInside (dims : Dimensions) : Move → Bool
  | .arrow _ => true
  | .click p => dims.contains p

/-- The selection reaches from the cell `a` to the active one. -/
def ExtendedFrom (a : Position) (s : Selection) : Prop := s.range = some ⟨a, s.active⟩

end Defs

variable {s s' : Selection} {dims : Dimensions} {a : Position} {m : Move} {ms : List Move}

/-! ### One move -/

theorem ExtendedFrom.anchor (h : s.ExtendedFrom a) : s.anchor = a := by
  unfold Selection.anchor
  rw [h]

/-- A move with shift makes the selection reach from its anchor. -/
theorem extendedFrom_move (dims : Dimensions) (s : Selection) (m : Move) :
    (s.move true dims m).ExtendedFrom s.anchor := by
  cases m <;> rfl

theorem move_activity (dims : Dimensions) (s : Selection) (m : Move) :
    (s.move true dims m).activity = s.activity := by
  cases m <;> rfl

/-- Where a move leads depends on the active cell alone. -/
theorem move_active (h : s.active = s'.active) (m : Move) :
    (s.move true dims m).active = (s'.move false dims m).active := by
  cases m with
  | arrow d => exact congrArg (fun p : Position => p.step d dims) h
  | click p => rfl

theorem contains_move (shift : Bool) (s : Selection) (hm : m.isInside dims = true) :
    dims.contains (s.move shift dims m).active = true := by
  cases m with
  | arrow d => exact contains_step _ _ _
  | click p => cases shift <;> exact hm

/-! ### One move after the other -/

/-- The anchor of a selection that is extended never moves. -/
theorem ExtendedFrom.moves (h : s.ExtendedFrom a) (ms : List Move) :
    (ms.foldl (move true dims) s).ExtendedFrom a := by
  induction ms generalizing s with
  | nil => exact h
  | cons m ms ih =>
    have hm := extendedFrom_move dims s m
    rw [h.anchor] at hm
    exact ih hm

theorem moves_activity (dims : Dimensions) (s : Selection) (ms : List Move) :
    (ms.foldl (move true dims) s).activity = s.activity := by
  induction ms generalizing s with
  | nil => rfl
  | cons m ms ih => exact (ih _).trans (move_activity dims s m)

theorem moves_active (h : s.active = s'.active) (ms : List Move) :
    (ms.foldl (move true dims) s).active = (ms.foldl (move false dims) s').active := by
  induction ms generalizing s s' with
  | nil => exact h
  | cons m ms ih => exact ih (move_active h m)

theorem contains_moves (shift : Bool) (h : dims.contains s.active = true)
    (hms : ∀ m ∈ ms, m.isInside dims = true) :
    dims.contains (ms.foldl (move shift dims) s).active = true := by
  induction ms generalizing s with
  | nil => exact h
  | cons m ms ih =>
    exact ih (contains_move shift s (hms m List.mem_cons_self)) fun m' hm' =>
      hms m' (List.mem_cons_of_mem m hm')

/-- However a selection is extended, its range starts where it did, or at the active cell if there
was none, and stops at the active cell, which is the one that the same moves lead to without shift.
What the user is doing goes on, and the active cell stays on the sheet. -/
theorem extending_keeps_anchor (s : Selection) (dims : Dimensions) {ms : List Move} (hne : ms ≠ [])
    (hactive : dims.contains s.active = true) (hms : ∀ m ∈ ms, m.isInside dims = true) :
    let extended := ms.foldl (move true dims) s
    let moved := ms.foldl (move false dims) s
    extended.range = some ⟨(s.range.map Range.start).getD s.active, extended.active⟩ ∧
      extended.active = moved.active ∧ extended.activity = s.activity ∧
      dims.contains extended.active = true := by
  intro extended moved
  have hanchor : s.anchor = (s.range.map Range.start).getD s.active := by
    unfold Selection.anchor
    cases s.range <;> rfl
  refine ⟨?_, moves_active rfl ms, moves_activity dims s ms, contains_moves true hactive hms⟩
  rw [← hanchor]
  obtain ⟨m, rest, rfl⟩ := List.exists_cons_of_ne_nil hne
  exact (extendedFrom_move dims s m).moves rest

/-- A range that was drawn upwards is extended past the edge, across the sheet and past another
edge, while a drag is under way. -/
theorem extending_keeps_anchor_pastEdges :
    let s : Selection := ⟨⟨1, 1⟩, some ⟨⟨2, 0⟩, ⟨1, 1⟩⟩, .dragging ⟨2, 0⟩⟩
    let dims : Dimensions := ⟨3, 3, by decide, by decide⟩
    let ms : List Move := [.arrow .up, .arrow .up, .click ⟨2, 2⟩, .arrow .right, .arrow .up]
    let extended := ms.foldl (move true dims) s
    ms ≠ [] ∧ dims.contains s.active = true ∧ (∀ m ∈ ms, m.isInside dims = true) ∧
      extended.active = ⟨1, 2⟩ ∧ extended.range = some ⟨⟨2, 0⟩, ⟨1, 2⟩⟩ ∧
      extended.activity = .dragging ⟨2, 0⟩ := by
  intro s dims ms extended
  have hne : ms ≠ [] := by decide
  have hactive : dims.contains s.active = true := by decide
  have hms : ∀ m ∈ ms, m.isInside dims = true := by decide
  obtain ⟨hrange, -, hactivity, -⟩ := extending_keeps_anchor s dims hne hactive hms
  have hled : extended.active = ⟨1, 2⟩ := by decide
  refine ⟨hne, hactive, hms, hled, ?_, hactivity⟩
  show extended.range = _
  rw [hrange, ← hled]
  rfl

end Selection

end Spreadsheet
