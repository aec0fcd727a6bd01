import Spreadsheet.Interchange.Sheet
import Spreadsheet.Proofs.Grid.Entries
import Spreadsheet.Proofs.Interchange.Records
import Spreadsheet.Proofs.Interchange.Within

/-!
# Spreadsheet.Proofs.Interchange.SheetText — an exported sheet is imported as it was

A table is imported with each of its fields in its own cell, blank ones left out.  The text of a
sheet is the text of the table of its cells, and so the import of it has the cells that lie on the
sheet and the sheet's size.  The one exception is a first cell that is marked: it loses its mark.
-/

namespace Spreadsheet

namespace Interchange

/-! ### Tables of fields -/

/-- The cells of a table's fields, row by row. -/
def tableCells (rows : List (List (List Char))) : List (Position × String) :=
  rows.zipIdx.flatMap fun r => recordCells r.2 r.1

theorem mem_tableCells {rows : List (List (List Char))} {e : Position × String} :
    e ∈ tableCells rows ↔
      ∃ fields, rows[e.1.row]? = some fields ∧ fields[e.1.col]? = some e.2.toList := by
  rw [tableCells, List.mem_flatMap]
  constructor
  · rintro ⟨⟨fields, row⟩, hrow, he⟩
    obtain ⟨⟨field, col⟩, hcol, rfl⟩ := List.mem_map.1 he
    exact ⟨fields, List.mk_mem_zipIdx_iff_getElem?.1 hrow,
      by rw [String.toList_ofList]; exact List.mk_mem_zipIdx_iff_getElem?.1 hcol⟩
  · rintro ⟨fields, hrow, hcol⟩
    refine ⟨(fields, e.1.row), List.mk_mem_zipIdx_iff_getElem?.2 hrow, List.mem_map.2 ?_⟩
    exact ⟨(e.2.toList, e.1.col), List.mk_mem_zipIdx_iff_getElem?.2 hcol,
      by rw [String.ofList_toList]⟩

theorem zipIdx_ordered {α : Type} (xs : List α) : xs.zipIdx.Pairwise fun a b => a.2 < b.2 := by
  rw [← List.pairwise_map, List.zipIdx_map_snd]
  exact List.pairwise_lt_range' ..

theorem tableCells_ordered (rows : List (List (List Char))) :
    (tableCells rows).Pairwise fun a b => a.1 < b.1 := by
  rw [tableCells, List.pairwise_flatMap]
  constructor
  · intro r _
    rw [recordCells, List.pairwise_map]
    exact (zipIdx_ordered r.1).imp fun {a b} h => .inr ⟨rfl, h⟩
  · refine (zipIdx_ordered rows).imp fun {r r'} h => ?_
    intro e he e' he'
    rw [← (mem_recordCells he).1, ← (mem_recordCells he').1] at h
    exact .inl h

/-- The cells of a table are its fields that are not blank. -/
theorem mem_ofLastTexts_tableCells {rows : List (List (List Char))} {e : Position × String} :
    e ∈ (Grid.ofLastTexts (tableCells rows)).entries ↔
      (∃ fields, rows[e.1.row]? = some fields ∧ fields[e.1.col]? = some e.2.toList) ∧
        Text.isBlankText e.2 = false := by
  rw [Grid.entries_ofLastTexts (tableCells_ordered rows), List.mem_filter, mem_tableCells,
    Bool.not_eq_true']

/-! ### Importing -/

/-- The fields of a text's records. -/
def fieldsOf (text : String) : List (List (List Char)) :=
  (Csv.records (Csv.dropMark text.toList)).map Csv.Record.fields

theorem recordsCells_eq (records : List Csv.Record) :
    (records.zipIdx.flatMap fun r => recordCells r.2 r.1.fields) =
      tableCells (records.map Csv.Record.fields) := by
  rw [tableCells, List.zipIdx_map, List.flatMap_map]
  rfl

/-- An imported table has the cells of the text's records and as many rows. -/
theorem table_of_importText {text : String} {t : Table} (h : importText text = .ok t) :
    t.grid = Grid.ofLastTexts (tableCells (fieldsOf text)) ∧ t.rows = (fieldsOf text).length := by
  rw [fieldsOf, List.length_map, ← recordsCells_eq]
  unfold importText at h
  simp only at h
  split_ifs at h
  split at h
  · cases h
  · obtain rfl := Except.ok.inj h
    exact ⟨rfl, rfl⟩

/-- A text that is not blank and has records of one length is imported. -/
theorem importText_of_fieldsOf {text : String} {f : List (List Char)} {fs : List (List (List Char))}
    (hblank : (Csv.dropMark text.toList).all Text.isBlank = false) (hfields : fieldsOf text = f :: fs)
    (hlength : ∀ r ∈ fs, r.length = f.length) :
    importText text = .ok ⟨Grid.ofLastTexts (tableCells (f :: fs)), fs.length + 1, f.length⟩ := by
  have hrecords : fieldsOf text =
      (Csv.records (Csv.dropMark text.toList)).map Csv.Record.fields := rfl
  rw [hfields] at hrecords
  obtain ⟨r, rs, heq, rfl, rfl⟩ := List.map_eq_cons_iff.1 hrecords.symm
  have hnone : mismatch? r.fields.length (r :: rs) = none := by
    rw [mismatch?, Option.map_eq_none_iff, List.find?_eq_none]
    intro s hs
    rw [decide_eq_true_iff, not_not]
    rcases List.mem_cons.1 hs with rfl | hs
    · rfl
    · exact hlength s.fields (List.mem_map_of_mem hs)
  unfold importText
  simp only [hblank, Bool.false_eq_true, if_false, heq, List.head?_cons, Option.map_some,
    Option.getD_some, hnone, recordsCells_eq, List.map_cons, List.length_cons, List.length_map]

/-! ### The text of a sheet -/

section Sheet

variable (g : Grid) (dims : Dimensions)

/-- The table of a sheet's cells. -/
def sheetFields : List (List (List Char)) := (List.range dims.rows).map (rowFields g dims)

theorem length_sheetFields : (sheetFields g dims).length = dims.rows := by
  rw [sheetFields, List.length_map, List.length_range]

theorem length_of_mem_sheetFields {r : List (List Char)} (h : r ∈ sheetFields g dims) :
    r.length = dims.cols := by
  obtain ⟨row, -, rfl⟩ := List.mem_map.1 h
  rw [rowFields, List.length_map, List.length_range]

/-- The first cell of a sheet, the others of its row, and the rows below. -/
theorem exists_sheetFields : ∃ fs rs,
    sheetFields g dims = ((g.textAt ⟨0, 0⟩).toList :: fs) :: rs := by
  have hrows := dims.rows_pos
  have hcols := dims.cols_pos
  obtain ⟨rows, hrows⟩ : ∃ rows, dims.rows = rows + 1 := ⟨dims.rows - 1, by omega⟩
  obtain ⟨cols, hcols⟩ : ∃ cols, dims.cols = cols + 1 := ⟨dims.cols - 1, by omega⟩
  rw [sheetFields, hrows, List.range_succ_eq_map, List.map_cons, rowFields, hcols,
    List.range_succ_eq_map, List.map_cons]
  exact ⟨_, _, rfl⟩

theorem getElem?_map_range {α : Type} (f : Nat → α) {n i : Nat} {a : α} :
    ((List.range n).map f)[i]? = some a ↔ i < n ∧ f i = a := by
  rw [List.getElem?_map, Option.map_eq_some_iff]
  simp only [List.getElem?_eq_some_iff, List.length_range, List.getElem_range]
  constructor
  · rintro ⟨j, ⟨hi, rfl⟩, ha⟩
    exact ⟨hi, ha⟩
  · rintro ⟨hi, ha⟩
    exact ⟨i, ⟨hi, rfl⟩, ha⟩

theorem getElem?_sheetFields {p : Position} {cs : List Char} :
    (∃ fields, (sheetFields g dims)[p.row]? = some fields ∧ fields[p.col]? = some cs) ↔
      dims.contains p = true ∧ (g.textAt p).toList = cs := by
  rw [Dimensions.contains_iff, and_assoc]
  constructor
  · rintro ⟨fields, hrow, hcol⟩
    obtain ⟨hlt, rfl⟩ := (getElem?_map_range _).1 hrow
    exact ⟨hlt, (getElem?_map_range _).1 hcol⟩
  · rintro ⟨hrow, hcol⟩
    exact ⟨rowFields g dims p.row, (getElem?_map_range _).2 ⟨hrow, rfl⟩,
      (getElem?_map_range _).2 hcol⟩

theorem dropMark_exportText :
    Csv.dropMark (exportText g dims).toList = Csv.text (sheetFields g dims) := by
  rw [exportText, String.toList_ofList, Csv.dropMark, if_pos rfl]
  rfl

theorem not_isBlank_exportText :
    (Csv.dropMark (exportText g dims).toList).all Text.isBlank = false := by
  rw [dropMark_exportText, ← Bool.not_eq_true]
  intro hblank
  obtain ⟨fs, rs, hfields⟩ := exists_sheetFields g dims
  rw [hfields] at hblank
  obtain ⟨hne, hfirst⟩ := Csv.isBlank_of_isBlank_text hblank
  cases hget : g.get? ⟨0, 0⟩ with
  | none =>
    rw [Grid.textAt, hget] at hne
    exact hne rfl
  | some raw =>
    have hfilled := g.filled _ (Grid.get?_eq_some_iff.1 hget)
    rw [Grid.textAt, hget] at hfirst
    exact Bool.false_ne_true (hfilled.symm.trans hfirst)

/-- The table of a sheet's cells has exactly the cells of the grid that lie on the sheet. -/
theorem ofLastTexts_sheetFields :
    Grid.ofLastTexts (tableCells (sheetFields g dims)) = g.onSheet dims := by
  refine Grid.ext_mem fun e => ?_
  rw [mem_ofLastTexts_tableCells, getElem?_sheetFields, Grid.mem_onSheet, String.toList_inj,
    Grid.mem_entries_iff, and_assoc, and_comm]

/-- The records of an exported sheet are its rows. -/
theorem fieldsOf_exportText (hfirst : ¬ Csv.IsMarked (g.textAt ⟨0, 0⟩).toList) :
    fieldsOf (exportText g dims) = sheetFields g dims := by
  obtain ⟨fs, rs, hfields⟩ := exists_sheetFields g dims
  have hne : ∀ r ∈ sheetFields g dims, r ≠ [] := by
    intro r hr hnil
    have hlength := length_of_mem_sheetFields g dims hr
    have hcols := dims.cols_pos
    rw [hnil, List.length_nil] at hlength
    omega
  rw [fieldsOf, dropMark_exportText, Csv.records, hfields, Csv.dropMark_text hfirst, ← hfields]
  exact Csv.map_fields_readFrom_text hne 1 1

/-- A marked first cell loses its mark, or its row with it. -/
theorem fieldsOf_exportText_of_marked {cs : List Char} (h : ∀ c ∈ cs, Csv.isSpecial c = false)
    (hfirst : (g.textAt ⟨0, 0⟩).toList = Csv.byteOrderMark :: cs) :
    (fieldsOf (exportText g dims)).length < dims.rows ∨
      ∃ fs rs, fieldsOf (exportText g dims) = (cs :: fs) :: rs := by
  obtain ⟨fs, rs, hfields⟩ := exists_sheetFields g dims
  rw [hfirst] at hfields
  have hrs : ∀ r ∈ rs, r ≠ [] := by
    intro r hr hnil
    have hlength := length_of_mem_sheetFields g dims (hfields ▸ List.mem_cons_of_mem _ hr)
    have hcols := dims.cols_pos
    rw [hnil, List.length_nil] at hlength
    omega
  have hlength := length_sheetFields g dims
  rw [hfields, List.length_cons] at hlength
  rw [fieldsOf, dropMark_exportText, Csv.records, hfields, Csv.dropMark_text_of_marked h]
  -- a first row with nothing but the mark becomes an empty line, which is skipped
  split_ifs
  · left
    have hread : Csv.readFrom .atStart ('\n' :: Csv.text rs) =
        Csv.readFrom ⟨.recordStart, 2, 1, [], []⟩ (Csv.text rs) := Csv.readFrom_step rfl _
    rw [hread, Csv.map_fields_readFrom_text hrs]
    omega
  · refine .inr ⟨fs, rs, Csv.map_fields_readFrom_text (fun r hr => ?_) 1 1⟩
    rcases List.mem_cons.1 hr with rfl | hr
    · exact List.cons_ne_nil _ _
    · exact hrs r hr

end Sheet

/-- The import of an exported sheet has exactly the cells that lie on the sheet, and its size, if and
only if the first cell is not marked. -/
theorem importText_exportText_iff (g : Grid) (dims : Dimensions) :
    importText (exportText g dims) = .ok ⟨g.onSheet dims, dims.rows, dims.cols⟩ ↔
      ¬ ((g.textAt ⟨0, 0⟩).toList.head? = some Csv.byteOrderMark ∧
        ∀ c ∈ (g.textAt ⟨0, 0⟩).toList, Csv.isSpecial c = false) := by
  constructor
  · rintro himport ⟨hhead, hplain⟩
    obtain ⟨cs, hfirst⟩ := List.head?_eq_some_iff.1 hhead
    obtain ⟨hgrid, hrows⟩ := table_of_importText himport
    have hcs : ∀ c ∈ cs, Csv.isSpecial c = false := fun c hc =>
      hplain c (hfirst ▸ List.mem_cons_of_mem _ hc)
    rcases fieldsOf_exportText_of_marked g dims hcs hfirst with hlost | ⟨fs, rs, hfields⟩
    · simp only at hrows
      omega
    · -- the first cell is on the sheet and not blank, so the import has its text
      have hfilled : Text.isBlankText (g.textAt ⟨0, 0⟩) = false := by
        rw [Text.isBlankText, hfirst]
        rfl
      have hmem : (⟨0, 0⟩, g.textAt ⟨0, 0⟩) ∈ (g.onSheet dims).entries :=
        Grid.mem_onSheet.2 ⟨Grid.mem_entries_iff.2 ⟨rfl, hfilled⟩,
          Dimensions.contains_iff.2 ⟨dims.rows_pos, dims.cols_pos⟩⟩
      simp only at hgrid
      rw [hgrid, hfields, mem_ofLastTexts_tableCells] at hmem
      obtain ⟨⟨fields, hrow, hcol⟩, -⟩ := hmem
      obtain rfl := Option.some.inj hrow
      have hsame : cs = Csv.byteOrderMark :: cs := (Option.some.inj hcol).trans hfirst
      exact absurd (congrArg List.length hsame) (by simp)
  · intro hfirst
    obtain ⟨fs, rs, hfields⟩ := exists_sheetFields g dims
    -- nothing is lost in reading, and all rows are as long as the sheet is wide
    have hlength : ∀ r ∈ sheetFields g dims, r.length = dims.cols := fun r hr =>
      length_of_mem_sheetFields g dims hr
    have hrows := length_sheetFields g dims
    have hread := (fieldsOf_exportText g dims hfirst).trans hfields
    rw [hfields] at hlength hrows
    have hcols := hlength _ List.mem_cons_self
    rw [importText_of_fieldsOf (not_isBlank_exportText g dims) hread fun r hr =>
      (hlength r (List.mem_cons_of_mem _ hr)).trans hcols.symm, hcols, ← hfields,
      ofLastTexts_sheetFields, ← hrows, List.length_cons]

-- A marked cell, alone on its line, is lost with its row.
example : importText (exportText (Grid.ofList [(⟨0, 0⟩, "\uFEFF")]) (.atLeastOne 1 1)) =
    .ok ⟨Grid.empty, 0, 0⟩ := by
  decide +kernel

end Interchange

end Spreadsheet
