import Spreadsheet.Proofs.Interchange.Copying

/-!
# Spreadsheet.Proofs.Interchange.Fields — what a paste leaves in every cell

The fields of a text are determined by the text alone: they have no tabs and breaks, and make it with
tabs between the fields of a line and breaks between the lines.  A paste whose places are words puts
each field that lands on the sheet in its cell, clears the cells of blank ones, and leaves all other
cells alone; the range that it reports is the block of fields cut off at the sheet's last row and
column.
-/

namespace Spreadsheet

namespace Interchange

/-! ### The fields of a text -/

/-- The text is these rows of fields, tabs between the fields and line breaks between the rows, once
every break is one character and one at the end is dropped. -/
structure HasFields (text : String) (rows : List (List String)) : Prop where
  rows_ne : rows ≠ []
  fields_ne : ∀ row ∈ rows, row ≠ []
  plain : ∀ row ∈ rows, ∀ field ∈ row, '\t' ∉ field.toList ∧ '\n' ∉ field.toList
  joined : joinWith '\n' (rows.map fun row => joinWith '\t' (row.map String.toList)) =
    dropFinalBreak (unifyBreaks text.toList)

section Fields

variable {text : String} {rows : List (List String)}

theorem hasFields_fieldRows (text : String) : HasFields text (fieldRows text) := by
  set body := dropFinalBreak (unifyBreaks text.toList) with hbody
  have hrows : fieldRows text =
      (splitAt '\n' body).map fun line => (splitAt '\t' line).map String.ofList := rfl
  constructor
  · rw [hrows, ne_eq, List.map_eq_nil_iff]
    exact splitAt_ne_nil '\n' body
  · intro row hrow
    obtain ⟨line, -, rfl⟩ := List.mem_map.1 hrow
    rw [ne_eq, List.map_eq_nil_iff]
    exact splitAt_ne_nil '\t' line
  · intro row hrow field hfield
    obtain ⟨line, hline, rfl⟩ := List.mem_map.1 hrow
    obtain ⟨piece, hpiece, rfl⟩ := List.mem_map.1 hfield
    obtain ⟨htab, hin⟩ := mem_of_mem_splitAt hpiece
    rw [String.toList_ofList]
    exact ⟨htab, fun hbreak => (mem_of_mem_splitAt hline).1 (hin '\n' hbreak)⟩
  · -- what has been split is joined again, at the tabs and at the breaks
    have hline (line : List Char) :
        joinWith '\t' (((splitAt '\t' line).map String.ofList).map String.toList) = line := by
      have hid : String.toList ∘ String.ofList = id := funext fun _ => String.toList_ofList
      rw [List.map_map, hid, List.map_id, joinWith_splitAt]
    have hlines : (fieldRows text).map (fun row => joinWith '\t' (row.map String.toList)) =
        splitAt '\n' body := by
      rw [hrows, List.map_map]
      exact (List.map_congr_left fun line _ => hline line).trans (List.map_id _)
    rw [hlines, joinWith_splitAt]

/-- The fields that a text is read as are the only ones it has. -/
theorem HasFields.fieldRows_eq (h : HasFields text rows) : fieldRows text = rows := by
  have hlines : splitAt '\n' (dropFinalBreak (unifyBreaks text.toList)) =
      rows.map fun row => joinWith '\t' (row.map String.toList) := by
    refine splitAt_eq_iff.2 ⟨?_, fun line hline hbreak => ?_, h.joined⟩
    · rw [ne_eq, List.map_eq_nil_iff]
      exact h.rows_ne
    · obtain ⟨row, hrow, rfl⟩ := List.mem_map.1 hline
      rcases mem_joinWith hbreak with htab | ⟨piece, hpiece, hbreak⟩
      · cases htab
      · obtain ⟨field, hfield, rfl⟩ := List.mem_map.1 hpiece
        exact (h.plain row hrow field hfield).2 hbreak
  -- and each line is split into the fields of its row
  have hrow : ∀ row ∈ rows,
      (splitAt '\t' (joinWith '\t' (row.map String.toList))).map String.ofList = row := by
    intro row hrow
    have hid : String.ofList ∘ String.toList = id := funext fun _ => String.ofList_toList
    rw [splitAt_joinWith, List.map_map, hid, List.map_id]
    · rw [ne_eq, List.map_eq_nil_iff]
      exact h.fields_ne row hrow
    · intro piece hpiece
      obtain ⟨field, hfield, rfl⟩ := List.mem_map.1 hpiece
      exact (h.plain row hrow field hfield).1
  rw [fieldRows, hlines, List.map_map]
  exact (List.map_congr_left hrow).trans (List.map_id rows)

theorem hasFields_iff : HasFields text rows ↔ fieldRows text = rows := by
  refine ⟨HasFields.fieldRows_eq, ?_⟩
  rintro rfl
  exact hasFields_fieldRows text

end Fields

/-! ### Pasting -/

section Paste

variable {text : String} {rows : List (List String)} {width : Nat} {origin : Position} {d : Dimensions}

/-- The block of fields, cut off at the sheet's last row and column, in terms of a longest row. -/
theorem coveredRange_eq (hmem : ∃ row ∈ rows, row.length = width)
    (hle : ∀ row ∈ rows, row.length ≤ width) :
    coveredRange origin rows d =
      ⟨origin, d.nearest ⟨origin.row + (rows.length - 1), origin.col + (width - 1)⟩⟩ := by
  rw [coveredRange, widest_eq hmem hle]

/-- A paste off the sheet does nothing.  On it, a block whose places are words leaves in each cell of
the sheet the field that lands there, or nothing if it is blank, and every other cell as it was; it
reports the block cut off at the end of the sheet, and all that has changed lies in there. -/
theorem paste_writes_fields (text : String) (origin : Position) (g : Grid) (d : Dimensions) :
    (d.contains origin = false → paste text origin g d = (none, g)) ∧
    ∀ rows width, HasFields text rows → (∃ row ∈ rows, row.length = width) →
      (∀ row ∈ rows, row.length ≤ width) → origin.row + rows.length < Word.size →
      origin.col + width < Word.size → d.contains origin = true →
      ∃ r g', paste text origin g d = (some r, g') ∧
        r = ⟨origin, d.nearest ⟨origin.row + (rows.length - 1), origin.col + (width - 1)⟩⟩ ∧
        (∀ i j t, fieldAt rows i j = some t → d.contains ⟨origin.row + i, origin.col + j⟩ = true →
          g'.get? ⟨origin.row + i, origin.col + j⟩ =
            if Text.isBlankText t = true then none else some t) ∧
        (∀ q, (∀ i j t, fieldAt rows i j = some t → q = ⟨origin.row + i, origin.col + j⟩ →
          d.contains q = false) → g'.get? q = g.get? q) ∧
        ∀ q, g'.get? q ≠ g.get? q → r.contains q = true := by
  refine ⟨fun hoff => paste_eq_of_paste? (paste?_of_not_contains g hoff), ?_⟩
  intro rows width h hmem hle hrows hcols horigin
  have hends : EndsInWords origin (fieldRows text) := by
    rw [hasFields_iff.1 h, EndsInWords, widest_eq hmem hle]
    exact ⟨hrows, hcols⟩
  have hpaste := paste_eq_of_paste? (paste?_of_endsInWords g horigin hends)
  rw [hasFields_iff.1 h] at hpaste
  refine ⟨_, _, hpaste, coveredRange_eq hmem hle, fun i j t ht hin => get?_pasteRows_of_field hin ht,
    fun q => get?_pasteRows_of_none, fun q hchanged => ?_⟩
  by_contra hout
  exact hchanged (get?_pasteRows_of_outside horigin (Bool.eq_false_iff.2 hout))

/-- Two cells of a sheet with two rows and two columns. -/
def twoCells : Grid := Grid.ofList [(⟨0, 0⟩, "kept"), (⟨1, 1⟩, "old")]

/-- Of two lines, of which the second is longer, one field lands on the last row of a sheet, and one
that is blank clears a cell there. -/
theorem paste_writes_fields_ragged :
    HasFields "a\t\r\n\tb\tc\r\n" [["a", ""], ["", "b", "c"]] ∧
      ∃ g', paste "a\t\r\n\tb\tc\r\n" ⟨1, 0⟩ twoCells ⟨2, 2, by decide, by decide⟩ =
          (some ⟨⟨1, 0⟩, ⟨1, 1⟩⟩, g') ∧
        g'.get? ⟨1, 0⟩ = some "a" ∧ g'.get? ⟨1, 1⟩ = none ∧ g'.get? ⟨0, 0⟩ = some "kept" := by
  have hfields : HasFields "a\t\r\n\tb\tc\r\n" [["a", ""], ["", "b", "c"]] :=
    ⟨by decide, by decide, by decide, by decide⟩
  obtain ⟨r, g', hpaste, rfl, hcells, hothers, -⟩ :=
    (paste_writes_fields "a\t\r\n\tb\tc\r\n" ⟨1, 0⟩ twoCells ⟨2, 2, by decide, by decide⟩).2
      _ 3 hfields (by decide) (by decide) (by decide) (by decide) (by decide)
  refine ⟨hfields, g', hpaste, ?_, ?_, ?_⟩
  · exact (hcells 0 0 "a" rfl (by decide)).trans (if_neg (by decide))
  · exact (hcells 0 1 "" rfl (by decide)).trans (if_pos (by decide))
  · have hkept : twoCells.get? ⟨0, 0⟩ = some "kept" := by decide +kernel
    refine (hothers ⟨0, 0⟩ fun i j t _ hplace => ?_).trans hkept
    -- nothing is pasted above the origin
    have hrow := congrArg Position.row hplace
    simp only at hrow
    omega

end Paste

end Interchange

end Spreadsheet
