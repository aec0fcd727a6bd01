import Spreadsheet.Proofs.Address.Rectangle
import Spreadsheet.Proofs.Grid.Within
import Spreadsheet.Proofs.Interchange.Pasting

/-!
# Spreadsheet.Proofs.Interchange.Copying — a copied rectangle is pasted as it was, but for one row

The fields of a rectangle's text are the texts of its cells, line by line.  Only a rectangle of one
column and several rows whose last cell is blank has a text that ends with a line break, and that
break is dropped when the text is read; then the last row is not pasted.  In every other case
pasting makes an exact copy.
-/

namespace Spreadsheet

/-- The place of a cell of a rectangle when its first cell is moved to `o`. -/
def Rect.moved (b : Rect) (o q : Position) : Position :=
  ⟨o.row + (q.row - b.top), o.col + (q.col - b.left)⟩

/-- The last cell of a rectangle. -/
def Rect.last (b : Rect) : Position := ⟨b.bottom, b.right⟩

namespace Interchange

/-- One grid is the other with the cells of a rectangle copied to where `o` is the first of them. -/
structure IsCopy (b : Rect) (o : Position) (g g' : Grid) : Prop where
  inside : ∀ q, b.contains q = true → g'.get? (b.moved o q) = g.get? q
  outside : ∀ q, (∀ p, b.contains p = true → b.moved o p ≠ q) → g'.get? q = g.get? q

/-- The text of the rectangle ends with a line break: it is one column of several rows, and the last
cell is blank. -/
def EndsWithBreak (b : Rect) (g : Grid) : Prop :=
  b.left = b.right ∧ b.top < b.bottom ∧ g.get? b.last = none

instance (b : Rect) (g : Grid) : Decidable (EndsWithBreak b g) :=
  inferInstanceAs (Decidable (_ ∧ _ ∧ _))

/-- The rows of a rectangle that are found again in its text. -/
def keptRows (b : Rect) (g : Grid) : Rect :=
  if EndsWithBreak b g then { b with bottom := b.bottom - 1 } else b

/-- The texts of a rectangle's cells, row by row. -/
def blockRows (b : Rect) (g : Grid) : List (List String) :=
  b.rows.map fun row => b.cols.map fun col => g.textAt ⟨row, col⟩

/-- No text of the grid has a tab or a line break in it. -/
def HasPlainTexts (g : Grid) : Prop :=
  ∀ e ∈ g.entries, ∀ c ∈ e.2.toList, c ≠ '\t' ∧ c ≠ '\r' ∧ c ≠ '\n'

theorem textAt_eq_empty_iff {g : Grid} {p : Position} : g.textAt p = "" ↔ g.get? p = none := by
  rw [Grid.textAt]
  cases hget : g.get? p with
  | none => exact iff_of_true rfl rfl
  | some text =>
    refine iff_of_false ?_ (Option.some_ne_none text)
    rintro rfl
    have hfilled := g.filled _ (Grid.get?_eq_some_iff.1 hget)
    cases hfilled

theorem filled_textAt (g : Grid) (p : Position) :
    (if Text.isBlankText (g.textAt p) = true then none else some (g.textAt p)) = g.get? p := by
  rw [Grid.textAt]
  cases hget : g.get? p with
  | none => rfl
  | some text =>
    have hfilled := g.filled _ (Grid.get?_eq_some_iff.1 hget)
    rw [Option.getD_some, hfilled]
    rfl

/-! ### The text of a rectangle -/

section Text

variable {b : Rect} {g : Grid}

/-- The characters of one line of a rectangle's text. -/
def lineText (b : Rect) (g : Grid) (row : Nat) : List Char :=
  joinWith '\t' (b.cols.map fun col => (g.textAt ⟨row, col⟩).toList)

theorem plain_textAt (h : HasPlainTexts g) {p : Position} {c : Char}
    (hc : c ∈ (g.textAt p).toList) : c ≠ '\t' ∧ c ≠ '\r' ∧ c ≠ '\n' := by
  rw [Grid.textAt] at hc
  cases hget : g.get? p with
  | none => rw [hget] at hc; cases hc
  | some text =>
    rw [hget] at hc
    exact h _ (Grid.get?_eq_some_iff.1 hget) c hc

theorem not_break_of_mem_lineText (h : HasPlainTexts g) {row : Nat} {c : Char}
    (hc : c ∈ lineText b g row) : c ≠ '\r' ∧ c ≠ '\n' := by
  rcases mem_joinWith hc with rfl | ⟨piece, hpiece, hc⟩
  · decide
  · obtain ⟨col, -, rfl⟩ := List.mem_map.1 hpiece
    exact (plain_textAt h hc).2

theorem splitAt_lineText (hcols : b.left ≤ b.right) (h : HasPlainTexts g) (row : Nat) :
    (splitAt '\t' (lineText b g row)).map String.ofList =
      b.cols.map fun col => g.textAt ⟨row, col⟩ := by
  have hne : (b.cols.map fun col => (g.textAt ⟨row, col⟩).toList) ≠ [] := by
    rw [ne_eq, List.map_eq_nil_iff, Rect.cols, List.range'_eq_nil_iff]
    omega
  rw [lineText, splitAt_joinWith hne, List.map_map]
  · exact List.map_congr_left fun col _ => String.ofList_toList
  · intro piece hpiece hmem
    obtain ⟨col, -, rfl⟩ := List.mem_map.1 hpiece
    exact (plain_textAt h hmem).1 rfl

/-- A line is empty if it is that of one blank cell. -/
theorem lineText_eq_nil_iff (hcols : b.left ≤ b.right) (row : Nat) :
    lineText b g row = [] ↔ b.left = b.right ∧ g.get? ⟨row, b.left⟩ = none := by
  have hcons : b.cols = b.left :: List.range' (b.left + 1) (b.right - b.left) := by
    rw [Rect.cols, show b.right + 1 - b.left = b.right - b.left + 1 by omega, List.range'_succ]
  rw [lineText, hcons, List.map_cons]
  rcases Nat.eq_zero_or_pos (b.right - b.left) with hone | hmore
  · rw [hone, List.range'_zero, List.map_nil, joinWith, String.toList_eq_nil_iff,
      textAt_eq_empty_iff, and_iff_right (show b.left = b.right by omega)]
  · obtain ⟨n, hn⟩ : ∃ n, b.right - b.left = n + 1 := ⟨b.right - b.left - 1, by omega⟩
    refine iff_of_false ?_ fun h => absurd h.1 (by omega)
    rw [hn, List.range'_succ, List.map_cons]
    exact List.append_ne_nil_of_right_ne_nil _ (List.cons_ne_nil _ _)

theorem rows_concat (h : b.top ≤ b.bottom) :
    b.rows = List.range' b.top (b.bottom - b.top) ++ [b.bottom] := by
  have hlast : b.top + 1 * (b.bottom - b.top) = b.bottom := by omega
  rw [Rect.rows, Nat.succ_sub h, List.range'_concat, hlast]

/-- The fields of a rectangle's text are the texts of its cells, but for a last row that is lost. -/
theorem fieldRows_block (hrows : b.top ≤ b.bottom) (hcols : b.left ≤ b.right)
    (h : HasPlainTexts g) :
    fieldRows (String.ofList (joinWith '\n' (b.rows.map (lineText b g)))) =
      blockRows (keptRows b g) g := by
  have hclean (line : List Char) (hline : line ∈ b.rows.map (lineText b g)) :
      '\r' ∉ line ∧ '\n' ∉ line := by
    obtain ⟨row, -, rfl⟩ := List.mem_map.1 hline
    exact ⟨fun hc => (not_break_of_mem_lineText h hc).1 rfl,
      fun hc => (not_break_of_mem_lineText h hc).2 rfl⟩
  have hread (rows : List Nat) :
      (rows.map (lineText b g)).map (fun line => (splitAt '\t' line).map String.ofList) =
        rows.map fun row => b.cols.map fun col => g.textAt ⟨row, col⟩ := by
    rw [List.map_map]
    exact List.map_congr_left fun row _ => splitAt_lineText hcols h row
  -- what is stripped as a final break is the separator before an empty last line
  have hlost : ((List.range' b.top (b.bottom - b.top)).map (lineText b g) ≠ [] ∧
      lineText b g b.bottom = []) ↔ EndsWithBreak b g := by
    have hmore : (List.range' b.top (b.bottom - b.top)).map (lineText b g) ≠ [] ↔
        b.top < b.bottom := by
      rw [ne_eq, List.map_eq_nil_iff, List.range'_eq_nil_iff]
      omega
    rw [hmore, lineText_eq_nil_iff hcols, EndsWithBreak, Rect.last, and_left_comm]
    refine and_congr_right fun hsame => ?_
    rw [hsame]
  rw [rows_concat hrows, List.map_append, List.map_singleton] at hclean ⊢
  rw [fieldRows_joinWith hclean, keptRows]
  by_cases hbreak : EndsWithBreak b g
  · have hcount : b.bottom - 1 + 1 - b.top = b.bottom - b.top := by
      have := hbreak.2.1
      omega
    rw [if_pos (hlost.2 hbreak), if_pos hbreak, hread, blockRows, Rect.rows, hcount]
    rfl
  · rw [if_neg fun hempty => hbreak (hlost.1 hempty), if_neg hbreak,
      ← List.map_singleton (f := lineText b g), ← List.map_append, ← rows_concat hrows, hread]
    rfl

end Text

/-! ### Pasting the text -/

theorem fieldAt_blockRows (b : Rect) (g : Grid) (i j : Nat) :
    fieldAt (blockRows b g) i j =
      if i < b.bottom + 1 - b.top ∧ j < b.right + 1 - b.left then
        some (g.textAt ⟨b.top + i, b.left + j⟩)
      else none := by
  rw [fieldAt, blockRows, Rect.rows, Rect.cols, List.getElem?_map]
  by_cases hi : i < b.bottom + 1 - b.top
  · rw [List.getElem?_range' hi, Option.map_some, Option.bind_some, List.getElem?_map]
    by_cases hj : j < b.right + 1 - b.left
    · rw [List.getElem?_range' hj, if_pos ⟨hi, hj⟩, Option.map_some, Nat.one_mul, Nat.one_mul]
    · rw [List.getElem?_eq_none (by rw [List.length_range']; omega), if_neg fun h => hj h.2]
      rfl
  · rw [List.getElem?_eq_none (by rw [List.length_range']; omega), if_neg fun h => hi h.1]
    rfl

section Paste

variable {r : Range} {o : Position} {g : Grid} {d : Dimensions} {b : Rect}

/-- The rows that are kept are a part of the rectangle with the same first row. -/
theorem keptRows_spec (h : b.top ≤ b.bottom) (g : Grid) :
    (keptRows b g).top = b.top ∧ (keptRows b g).left = b.left ∧ (keptRows b g).right = b.right ∧
      b.top ≤ (keptRows b g).bottom ∧ (keptRows b g).bottom ≤ b.bottom := by
  rw [keptRows]
  split
  · rename_i hbreak
    have := hbreak.2.1
    refine ⟨rfl, rfl, rfl, ?_, ?_⟩
    · simp only
      omega
    · simp only
      omega
  · exact ⟨rfl, rfl, rfl, h, Nat.le_refl _⟩

/-- Rows of texts that fit on the sheet are copied. -/
theorem isCopy_pasteRows (hrows : b.top ≤ b.bottom)
    (hfit : d.contains (b.moved o b.last) = true) :
    IsCopy b o g (pasteRows d o g (blockRows b g)) := by
  rw [Dimensions.contains_iff] at hfit
  simp only [Rect.moved, Rect.last] at hfit
  constructor
  · intro q hq
    rw [Rect.contains_iff] at hq
    -- a cell of the rectangle is the place of one field
    have hplace : b.top + (q.row - b.top) = q.row ∧ b.left + (q.col - b.left) = q.col := by omega
    have hfield : fieldAt (blockRows b g) (q.row - b.top) (q.col - b.left) = some (g.textAt q) := by
      rw [fieldAt_blockRows, if_pos (by omega), hplace.1, hplace.2]
    have hin : d.contains ⟨o.row + (q.row - b.top), o.col + (q.col - b.left)⟩ = true := by
      rw [Dimensions.contains_iff]
      simp only
      omega
    rw [Rect.moved, get?_pasteRows_of_field hin hfield, filled_textAt]
  · intro q hq
    refine get?_pasteRows_of_none ?_
    rintro i j t ht rfl
    rw [fieldAt_blockRows, Option.ite_none_right_eq_some] at ht
    obtain ⟨⟨hi, hj⟩, -⟩ := ht
    exfalso
    have hin : b.contains ⟨b.top + i, b.left + j⟩ = true := by
      rw [Rect.contains_iff]
      simp only
      omega
    refine hq _ hin ?_
    rw [Rect.moved, Nat.add_sub_cancel_left, Nat.add_sub_cancel_left]

/-- Pasting the text of a rectangle copies the rows that are found again in the text, and covers as
many. -/
theorem paste_blockText (hwords : d.AreWords)
    (hfit : d.contains (r.rect.moved o r.rect.last) = true) (hplain : HasPlainTexts g) :
    paste (blockText r g) o g d =
        (some ⟨o, r.rect.moved o (keptRows r.rect g).last⟩,
          pasteRows d o g (blockRows (keptRows r.rect g) g)) ∧
      IsCopy (keptRows r.rect g) o g (pasteRows d o g (blockRows (keptRows r.rect g) g)) := by
  obtain ⟨hrows, hcols⟩ := r.rect_ordered
  have hread : fieldRows (blockText r g) = blockRows (keptRows r.rect g) g :=
    fieldRows_block hrows hcols hplain
  obtain ⟨htop, hleft, hright, hrows', hbottom⟩ := keptRows_spec hrows g
  have hfit' := Dimensions.contains_iff.1 hfit
  simp only [Rect.moved, Rect.last] at hfit'
  have hlimit := hwords.1
  have hlimit' := hwords.2
  have hlength : (blockRows (keptRows r.rect g) g).length =
      (keptRows r.rect g).bottom + 1 - r.rect.top := by
    rw [blockRows, List.length_map, Rect.rows, List.length_range', htop]
  have hwidest : widest (blockRows (keptRows r.rect g) g) = r.rect.right + 1 - r.rect.left := by
    have hline : ∀ row ∈ blockRows (keptRows r.rect g) g,
        row.length = r.rect.right + 1 - r.rect.left := by
      intro row hrow
      obtain ⟨n, -, rfl⟩ := List.mem_map.1 hrow
      rw [List.length_map, Rect.cols, List.length_range', hleft, hright]
    obtain ⟨row, hrow⟩ := List.exists_mem_of_length_pos (l := blockRows (keptRows r.rect g) g)
      (by omega)
    exact widest_eq ⟨row, hrow, hline row hrow⟩ fun row hrow => Nat.le_of_eq (hline row hrow)
  have horigin : d.contains o = true := by
    rw [Dimensions.contains_iff]
    omega
  -- the block lies on the sheet, and the size of the sheet is a word
  have hends : EndsInWords o (blockRows (keptRows r.rect g) g) :=
    ⟨by rw [hlength]; omega, by rw [hwidest]; omega⟩
  have hcovered : coveredRange o (blockRows (keptRows r.rect g) g) d =
      ⟨o, r.rect.moved o (keptRows r.rect g).last⟩ := by
    rw [coveredRange, hlength, hwidest]
    simp only [Dimensions.nearest, Rect.moved, Rect.last, hright, Range.mk.injEq, Position.mk.injEq,
      true_and]
    -- the block lies on the sheet, so that nothing is cut off
    omega
  constructor
  · rw [paste_eq_of_paste? (paste?_of_endsInWords g horigin (hread.symm ▸ hends)), hread, hcovered]
  · refine isCopy_pasteRows (by omega) ?_
    rw [Dimensions.contains_iff]
    simp only [Rect.moved, Rect.last]
    omega

/-- Pasting the text of a rectangle where there is room for it makes an exact copy and covers the
whole of it, unless the text ends with a line break. -/
theorem paste_blockText_iff (hwords : d.AreWords)
    (hfit : d.contains (r.rect.moved o r.rect.last) = true) (hplain : HasPlainTexts g) :
    (∃ g', paste (blockText r g) o g d = (some ⟨o, r.rect.moved o r.rect.last⟩, g') ∧
        IsCopy r.rect o g g') ↔
      ¬ EndsWithBreak r.rect g := by
  obtain ⟨hpaste, hcopy⟩ := paste_blockText hwords hfit hplain
  constructor
  · rintro ⟨g', hclaim, -⟩ hbreak
    -- the range that is covered ends one row too early
    have hrange := congrArg Prod.fst (hpaste.symm.trans hclaim)
    have hrow := congrArg (fun range => range.stop.row) (Option.some.inj hrange)
    simp only [keptRows, if_pos hbreak, Rect.moved, Rect.last] at hrow
    have := hbreak.2.1
    omega
  · intro hbreak
    rw [keptRows, if_neg hbreak] at hpaste hcopy
    exact ⟨_, hpaste, hcopy⟩

end Paste

/-! ### Sheets on which rectangles are copied -/

/-- Three texts and a formula around a blank cell. -/
def overlapping : Grid :=
  Grid.ofList [(⟨0, 0⟩, "a"), (⟨1, 1⟩, "=A1"), (⟨1, 2⟩, "b"), (⟨2, 1⟩, "c")]

/-- The second copy of a square lies over a part of the first. -/
theorem paste_blockText_iff_overlapping :
    (∃ g', paste (blockText ⟨⟨0, 0⟩, ⟨1, 1⟩⟩ overlapping) ⟨1, 1⟩ overlapping Dimensions.standard =
        (some ⟨⟨1, 1⟩, ⟨2, 2⟩⟩, g') ∧ IsCopy ⟨0, 1, 0, 1⟩ ⟨1, 1⟩ overlapping g') ∧
      overlapping.get? ⟨1, 2⟩ = some "b" ∧ overlapping.get? ⟨0, 1⟩ = none := by
  have hplain : HasPlainTexts overlapping := by
    have hall : ∀ e ∈ overlapping.entries,
        (e.2.toList.all fun c => c != '\t' && c != '\r' && c != '\n') = true := by decide +kernel
    intro e he c hc
    have := List.all_eq_true.1 (hall e he) c hc
    simpa [and_assoc] using this
  refine ⟨(paste_blockText_iff ⟨by decide, by decide⟩ (by decide) hplain).2 ?_, by decide +kernel,
    by decide +kernel⟩
  exact fun hbreak => absurd hbreak.1 (by decide)

/-- A column of a text and a blank cell, and a text beside the blank one. -/
def column : Grid := Grid.ofList [(⟨0, 0⟩, "a"), (⟨1, 1⟩, "stale")]

/-- When the column is copied one column to the right, the text beside the blank cell stays. -/
theorem paste_blockText_column :
    paste (blockText ⟨⟨0, 0⟩, ⟨1, 0⟩⟩ column) ⟨0, 1⟩ column Dimensions.standard =
        (some ⟨⟨0, 1⟩, ⟨0, 1⟩⟩, Grid.ofList [(⟨0, 0⟩, "a"), (⟨0, 1⟩, "a"), (⟨1, 1⟩, "stale")]) ∧
      ¬ ∃ g', paste (blockText ⟨⟨0, 0⟩, ⟨1, 0⟩⟩ column) ⟨0, 1⟩ column Dimensions.standard =
        (some ⟨⟨0, 1⟩, ⟨1, 1⟩⟩, g') ∧ IsCopy ⟨0, 1, 0, 0⟩ ⟨0, 1⟩ column g' := by
  have hpaste : paste (blockText ⟨⟨0, 0⟩, ⟨1, 0⟩⟩ column) ⟨0, 1⟩ column Dimensions.standard =
      (some ⟨⟨0, 1⟩, ⟨0, 1⟩⟩, Grid.ofList [(⟨0, 0⟩, "a"), (⟨0, 1⟩, "a"), (⟨1, 1⟩, "stale")]) := by
    decide +kernel
  refine ⟨hpaste, ?_⟩
  rintro ⟨g', hclaim, -⟩
  rw [hpaste] at hclaim
  have hrange : some (Range.mk ⟨0, 1⟩ ⟨0, 1⟩) = some ⟨⟨0, 1⟩, ⟨1, 1⟩⟩ := congrArg Prod.fst hclaim
  exact absurd hrange (by decide)

end Interchange

end Spreadsheet
