import Mathlib.Order.Bounds.Defs
import Spreadsheet.Proofs.Grid.Entries
import Spreadsheet.Proofs.Grid.Within

/-!
# Spreadsheet.Proofs.Document.Size — the least size with room for the cells

A size that is grown for positions is the least one above the old size with room for all of them, so
neither their order matters nor how often each of them occurs.  The size of a document is grown for
the corner of its cells alone, which need not be a cell itself.  That makes as much room as growing for
every cell would, and in each direction by itself not one row or column more than the cells need.
-/

namespace Spreadsheet

namespace Dimensions

variable {d d' : Dimensions} {p : Position} {ps qs : List Position}

theorem le_antisymm (h : d ≤ d') (h' : d' ≤ d) : d = d' := by
  obtain ⟨hrows, hcols⟩ := le_iff.1 h
  obtain ⟨hrows', hcols'⟩ := le_iff.1 h'
  cases d
  cases d'
  simp only [mk.injEq]
  exact ⟨Nat.le_antisymm hrows hrows', Nat.le_antisymm hcols hcols'⟩

/-- Two sizes below the same sizes are equal. -/
theorem eq_of_forall_le_iff (h : ∀ e, d ≤ e ↔ d' ≤ e) : d = d' :=
  le_antisymm ((h d').2 (le_refl d')) ((h d).1 (le_refl d))

/-- There are as many rows and columns as the position's own, counted from one in words. -/
def HasRoom (d : Dimensions) (p : Position) : Prop :=
  Word.add p.row 1 ≤ d.rows ∧ Word.add p.col 1 ≤ d.cols

theorem hasRoom_iff (hp : p.HasId) : d.HasRoom p ↔ d.contains p = true := by
  rw [HasRoom, Word.add_eq hp.1, Word.add_eq hp.2, contains_iff]
  rfl

theorem including_le_iff : d.including p ≤ d' ↔ d ≤ d' ∧ d'.HasRoom p := by
  rw [le_iff, le_iff, including, Nat.max_le, Nat.max_le]
  exact and_and_and_comm

/-- The size grown for positions one after the other. -/
def includingAll (d : Dimensions) (ps : List Position) : Dimensions := ps.foldl including d

theorem includingAll_le_iff : d.includingAll ps ≤ d' ↔ d ≤ d' ∧ ∀ p ∈ ps, d'.HasRoom p := by
  induction ps generalizing d with
  | nil => exact (and_iff_left (List.forall_mem_nil _)).symm
  | cons p ps ih =>
    rw [List.forall_mem_cons, ← and_assoc, ← including_le_iff]
    exact ih

/-- Which positions a size is grown for decides it, not their order or number. -/
theorem includingAll_congr (h : ∀ p, p ∈ ps ↔ p ∈ qs) : d.includingAll ps = d.includingAll qs := by
  refine eq_of_forall_le_iff fun e => ?_
  simp only [includingAll_le_iff, h]

end Dimensions

namespace Document

variable {s : Document} {d : Dimensions}

/-- So many rows are those of the document, at least one, and enough for all cells. -/
def RowsFit (s : Document) (n : Nat) : Prop :=
  max s.rows 1 ≤ n ∧ ∀ p text, s.grid.get? p = some text → p.row < n

/-- So many columns are those of the document, at least one, and enough for all cells. -/
def ColsFit (s : Document) (n : Nat) : Prop :=
  max s.cols 1 ≤ n ∧ ∀ p text, s.grid.get? p = some text → p.col < n

/-- Every cell of the document has an id. -/
def HasIds (s : Document) : Prop := ∀ p text, s.grid.get? p = some text → p.HasId

theorem within_iff_get? : s.grid.Within d ↔
    ∀ p text, s.grid.get? p = some text → d.contains p = true :=
  ⟨fun h _ _ hget => h _ (Grid.get?_eq_some_iff.1 hget),
    fun h _ he => h _ _ (Grid.get?_eq_some_iff.2 he)⟩

/-- The corner has room exactly if all cells have. -/
theorem dims_le_iff (h : s.HasIds) :
    s.dims ≤ d ↔ Dimensions.atLeastOne s.rows s.cols ≤ d ∧ s.grid.Within d := by
  unfold dims
  -- no cell has to be covered, or the corner stands for all of them
  cases hcorner : s.grid.extent? with
  | none =>
    have hwithin : s.grid.Within d := by
      intro e he
      rw [Grid.extent?_eq_none hcorner] at he
      cases he
    exact (and_iff_left hwithin).symm
  | some corner =>
    obtain ⟨hcover, hid⟩ := Grid.extent?_spec hcorner
    have hids : ∀ e ∈ s.grid.entries, e.1.HasId :=
      fun e he => h e.1 e.2 (Grid.get?_eq_some_iff.2 he)
    simp only [Dimensions.including_le_iff, Dimensions.hasRoom_iff (hid hids)]
    refine and_congr_right fun _ => ⟨fun hcontains e he => ?_, fun hw => hw.contains_extent hcorner⟩
    have hle := hcover e he
    rw [Dimensions.contains_iff] at hcontains ⊢
    omega

/-- The two directions do not depend on each other. -/
theorem dims_le_iff_fit (h : s.HasIds) : s.dims ≤ d ↔ s.RowsFit d.rows ∧ s.ColsFit d.cols := by
  rw [dims_le_iff h, within_iff_get?]
  simp only [Dimensions.contains_iff]
  constructor
  · rintro ⟨hsize, hcells⟩
    exact ⟨⟨hsize.1, fun p text hget => (hcells p text hget).1⟩,
      hsize.2, fun p text hget => (hcells p text hget).2⟩
  · rintro ⟨⟨hrows, hrow⟩, hcols, hcol⟩
    exact ⟨⟨hrows, hcols⟩, fun p text hget => ⟨hrow p text hget, hcol p text hget⟩⟩

theorem isLeast_dims (h : s.HasIds) :
    IsLeast {n | s.RowsFit n} s.dims.rows ∧ IsLeast {n | s.ColsFit n} s.dims.cols := by
  obtain ⟨hrows, hcols⟩ := (dims_le_iff_fit h).1 (Dimensions.le_refl s.dims)
  -- what fits in one direction is compared as a size that keeps the document's other number
  refine ⟨⟨hrows, fun n hn => ?_⟩, hcols, fun n hn => ?_⟩
  · have hpos : 0 < n := Nat.lt_of_lt_of_le Nat.one_pos (Nat.max_le.1 hn.1).2
    have hle : s.dims ≤ ⟨n, s.dims.cols, hpos, s.dims.cols_pos⟩ :=
      (dims_le_iff_fit h).2 ⟨hn, hcols⟩
    exact hle.1
  · have hpos : 0 < n := Nat.lt_of_lt_of_le Nat.one_pos (Nat.max_le.1 hn.1).2
    have hle : s.dims ≤ ⟨s.dims.rows, n, s.dims.rows_pos, hpos⟩ :=
      (dims_le_iff_fit h).2 ⟨hrows, hn⟩
    exact hle.2

/-- The size of a document is the one that is grown for all cells, in any order. -/
theorem dims_eq_includingAll (h : s.HasIds) {ps : List Position}
    (hps : ∀ p, p ∈ ps ↔ (s.grid.get? p).isSome = true) :
    s.dims = (Dimensions.atLeastOne s.rows s.cols).includingAll ps := by
  refine Dimensions.eq_of_forall_le_iff fun d => ?_
  rw [dims_le_iff h, Dimensions.includingAll_le_iff, within_iff_get?]
  refine and_congr_right fun _ => ⟨fun hcells p hp => ?_, fun hroom p text hget => ?_⟩
  · obtain ⟨text, hget⟩ := Option.isSome_iff_exists.1 ((hps p).1 hp)
    exact (Dimensions.hasRoom_iff (h p text hget)).2 (hcells p text hget)
  · have hp : p ∈ ps := (hps p).2 (Option.isSome_iff_exists.2 ⟨text, hget⟩)
    exact (Dimensions.hasRoom_iff (h p text hget)).1 (hroom p hp)

/-- A document whose cells have ids has the least size with room for them, in each direction by itself,
and growing for cells leads there in any order; growing any size for positions depends neither on
their order nor on repetitions. -/
theorem dims_least_for_cells :
    (∀ s : Document, s.HasIds →
      (∀ p text, s.grid.get? p = some text → s.dims.contains p = true) ∧
      IsLeast {n | s.RowsFit n} s.dims.rows ∧ IsLeast {n | s.ColsFit n} s.dims.cols ∧
      ∀ ps, (∀ p, p ∈ ps ↔ (s.grid.get? p).isSome = true) →
        s.dims = (Dimensions.atLeastOne s.rows s.cols).includingAll ps) ∧
    ∀ (d : Dimensions) (ps qs : List Position), (∀ p, p ∈ ps ↔ p ∈ qs) →
      d.includingAll ps = d.includingAll qs := by
  refine ⟨fun s h => ?_, fun d ps qs hmem => Dimensions.includingAll_congr hmem⟩
  have hwithin : s.grid.Within s.dims := ((dims_le_iff h).1 (Dimensions.le_refl s.dims)).2
  obtain ⟨hrows, hcols⟩ := isLeast_dims h
  exact ⟨within_iff_get?.1 hwithin, hrows, hcols, fun ps hps => dims_eq_includingAll h hps⟩

/-- Two cells of which one has the largest row and the other one the largest column. -/
def scattered : Document :=
  ⟨Grid.ofList [(⟨29, 0⟩, "x"), (⟨0, 9⟩, "=A30")], 5, 0, standardKind⟩

/-- Neither cell is the corner, and the size is that of the corner: `J30`. -/
theorem dims_least_for_cells_scattered :
    scattered.HasIds ∧
      scattered.dims.contains ⟨29, 0⟩ = true ∧ scattered.dims.contains ⟨0, 9⟩ = true ∧
      scattered.dims.rows = 30 ∧ scattered.dims.cols = 10 ∧ ¬ scattered.RowsFit 29 ∧
      ¬ scattered.ColsFit 9 ∧
      Dimensions.standard.includingAll [⟨299, 0⟩, ⟨0, 99⟩, ⟨299, 0⟩] =
        Dimensions.standard.includingAll [⟨0, 99⟩, ⟨299, 0⟩] := by
  have hentries : scattered.grid.entries = [(⟨0, 9⟩, "=A30"), (⟨29, 0⟩, "x")] := by decide
  have hids : scattered.HasIds := by
    intro p text hget
    have hmem := Grid.get?_eq_some_iff.1 hget
    rw [hentries] at hmem
    simp only [List.mem_cons, Prod.mk.injEq, List.not_mem_nil, or_false] at hmem
    rcases hmem with ⟨rfl, -⟩ | ⟨rfl, -⟩ <;> exact ⟨by decide, by decide⟩
  obtain ⟨hdocument, hany⟩ := dims_least_for_cells
  obtain ⟨hcontains, hrows, hcols, -⟩ := hdocument scattered hids
  have hrow : scattered.dims.rows = 30 := by decide
  have hcol : scattered.dims.cols = 10 := by decide
  refine ⟨hids, hcontains _ "x" (by decide), hcontains _ "=A30" (by decide), hrow, hcol,
    fun hfit => ?_, fun hfit => ?_, hany _ _ _ (by simp [or_comm])⟩
  · exact absurd (hrows.2 hfit) (by rw [hrow]; decide)
  · exact absurd (hcols.2 hfit) (by rw [hcol]; decide)

end Document

end Spreadsheet
