import Spreadsheet.Proofs.Files.Importing
import Spreadsheet.Proofs.Interchange.LineNumbers
import Spreadsheet.Proofs.Interchange.SheetText
import Spreadsheet.Proofs.Workspace.Operations

/-!
# Spreadsheet.Proofs.Interchange.Shape — the shape of an imported table

An imported table has one row for each record and as many columns as every record has fields, and
its cells are the fields that are not blank.  So it is a table of at least one cell if there is a
record.  Two byte order marks with nothing but breaks behind them hold no record, but are not blank
either, because a mark is no blank: that text, and no other, is imported as a table of no rows.
-/

namespace Spreadsheet

namespace Csv

/-! ### Texts without records -/

theorem readFrom_ne_nil {r : Reader} {cs : List Char} (h : r.place ≠ .recordStart) :
    readFrom r cs ≠ [] := by
  induction cs generalizing r with
  | nil =>
    rw [readFrom, if_neg h]
    simp
  | cons c cs ih =>
    rcases step_cases r c with ⟨hstart, -, -⟩ | ⟨-, -, hstep⟩ | ⟨-, r', hstep, hplace, -, -⟩
    · exact absurd hstart h
    · rw [readFrom_record hstep]
      simp
    · rw [readFrom_step hstep]
      exact ih hplace

/-- Between records, nothing but breaks holds no record. -/
theorem readFrom_eq_nil_iff {r : Reader} {cs : List Char} (h : r.place = .recordStart) :
    readFrom r cs = [] ↔ ∀ c ∈ cs, isBreak c = true := by
  refine ⟨fun hread => ?_, readFrom_breaks h⟩
  induction cs generalizing r with
  | nil => simp
  | cons c cs ih =>
    rcases step_cases r c with ⟨-, hc, hstep⟩ | ⟨hno, -, -⟩ | ⟨-, r', hstep, hplace, -, -⟩
    · rw [readFrom_step hstep] at hread
      exact List.forall_mem_cons.2 ⟨hc, ih (r := { r with line := r.lineBehind c }) h hread⟩
    · exact absurd h hno
    · rw [readFrom_step hstep] at hread
      exact absurd hread (readFrom_ne_nil hplace)

theorem records_eq_nil_iff {cs : List Char} :
    records cs = [] ↔ ∀ c ∈ dropMark cs, isBreak c = true := readFrom_eq_nil_iff rfl

/-- A record has at least one field. -/
theorem fields_ne_nil {r : Reader} {cs : List Char} {record : Record}
    (h : record ∈ readFrom r cs) : record.fields ≠ [] := by
  induction cs generalizing r with
  | nil =>
    rw [readFrom] at h
    split at h
    · cases h
    · rw [List.mem_singleton.1 h]
      simp [Reader.record]
  | cons c cs ih =>
    rw [readFrom] at h
    rcases List.mem_append.1 h with h | h
    · intro hnil
      have hlength := fields_step.2 record (Option.mem_toList.1 h)
      rw [hnil] at hlength
      simp at hlength
    · exact ih h

theorem isBlank_of_isBreak {c : Char} (h : isBreak c = true) : Text.isBlank c = true := by
  rcases isBreak_iff.1 h with rfl | rfl <;> rfl

/-- What is left of a text without its mark is the text, or what follows its mark. -/
theorem dropMark_cases (cs : List Char) :
    dropMark cs = cs ∧ cs.head? ≠ some byteOrderMark ∨ cs = byteOrderMark :: dropMark cs := by
  cases cs with
  | nil => exact .inl ⟨rfl, by simp⟩
  | cons c cs =>
    by_cases hc : c = byteOrderMark
    · rw [dropMark, if_pos hc, hc]
      exact .inr rfl
    · rw [dropMark, if_neg hc]
      exact .inl ⟨rfl, by simpa using hc⟩

end Csv

/-! ### The shape of a table -/

/-- The table has a row for each of these records, a column for each field of every record, and in
its cells the fields that are not blank. -/
structure Table.Shows (t : Table) (records : List (List (List Char))) : Prop where
  rows : t.rows = records.length
  cols : ∀ fields ∈ records, fields.length = t.cols
  tight : t.IsTight
  field : ∀ {row col : Nat} {fields : List (List Char)} {field : List Char},
    records[row]? = some fields → fields[col]? = some field →
      t.grid.get? ⟨row, col⟩ = if field.all Text.isBlank then none else some (String.ofList field)

namespace Interchange

variable {text : String} {t : Table}

theorem fields_ne_nil_of_mem_fieldsOf {fields : List (List Char)} (h : fields ∈ fieldsOf text) :
    fields ≠ [] := by
  obtain ⟨record, hrecord, rfl⟩ := List.mem_map.1 h
  exact Csv.fields_ne_nil hrecord

/-- The cell of a field is empty exactly if the field is blank. -/
theorem get?_tableCells {rows : List (List (List Char))} {row col : Nat}
    {fields : List (List Char)} {field : List Char} (hrow : rows[row]? = some fields)
    (hcol : fields[col]? = some field) :
    (Grid.ofLastTexts (tableCells rows)).get? ⟨row, col⟩ =
      if field.all Text.isBlank then none else some (String.ofList field) := by
  -- a text is in the cell if it is that of the field and not blank
  refine Option.ext fun raw => ?_
  rw [Grid.get?_eq_some_iff, mem_ofLastTexts_tableCells, Text.isBlankText]
  constructor
  · rintro ⟨⟨fields', hrow', hcol'⟩, hfilled⟩
    rw [hrow, Option.some.injEq] at hrow'
    subst hrow'
    rw [hcol, Option.some.injEq] at hcol'
    rw [← hcol'] at hfilled
    rw [if_neg (by simp [hfilled]), hcol', String.ofList_toList]
  · intro hraw
    by_cases hblank : field.all Text.isBlank = true
    · rw [if_pos hblank] at hraw
      cases hraw
    · rw [if_neg hblank, Option.some.injEq] at hraw
      subst hraw
      rw [String.toList_ofList]
      exact ⟨⟨fields, hrow, hcol⟩, eq_false_of_ne_true hblank⟩

/-- Of the records of a text that is imported, each has as many fields as the table has columns. -/
theorem cols_of_importText (h : importText text = .ok t) :
    ∀ fields ∈ fieldsOf text, fields.length = t.cols := by
  unfold importText at h
  simp only at h
  split_ifs at h
  split at h
  · cases h
  · rename_i hmismatch
    obtain rfl := Except.ok.inj h
    intro fields hfields
    obtain ⟨record, hrecord, rfl⟩ := List.mem_map.1 hfields
    exact fields_of_mismatch?_none hmismatch record hrecord

theorem shows_of_importText (h : importText text = .ok t) : t.Shows (fieldsOf text) := by
  obtain ⟨hgrid, hrows⟩ := table_of_importText h
  refine ⟨hrows, cols_of_importText h, (importText_spec h).1, fun hrow hcol => ?_⟩
  rw [hgrid]
  exact get?_tableCells hrow hcol

/-- A table of records has at least one cell exactly if there is a record. -/
theorem one_le_iff_of_importText (h : importText text = .ok t) :
    1 ≤ t.rows ∧ 1 ≤ t.cols ↔ fieldsOf text ≠ [] := by
  have hshows := shows_of_importText h
  constructor
  · rintro ⟨hrows, -⟩ hnil
    rw [hshows.rows, hnil] at hrows
    simp at hrows
  · intro hne
    obtain ⟨fields, rest, hfields⟩ := List.exists_cons_of_ne_nil hne
    have hmem : fields ∈ fieldsOf text := hfields ▸ List.mem_cons_self
    rw [hshows.rows, ← hshows.cols fields hmem]
    have hfilled := List.length_pos_of_ne_nil (fields_ne_nil_of_mem_fieldsOf hmem)
    exact ⟨List.length_pos_of_ne_nil hne, hfilled⟩

/-! ### Texts without records -/

/-- The text is two marks and nothing but breaks behind them. -/
def IsMarkedTwice (text : String) : Prop :=
  ∃ breaks, text.toList = Csv.byteOrderMark :: Csv.byteOrderMark :: breaks ∧
    ∀ c ∈ breaks, Csv.isBreak c = true

theorem fieldsOf_eq_nil_iff :
    fieldsOf text = [] ↔
      ∀ c ∈ Csv.dropMark (Csv.dropMark text.toList), Csv.isBreak c = true := by
  rw [fieldsOf, List.map_eq_nil_iff, Csv.records_eq_nil_iff]

/-- A text that holds no record and is not taken for blank is marked twice. -/
theorem isMarkedTwice_iff :
    IsMarkedTwice text ↔
      fieldsOf text = [] ∧ (Csv.dropMark text.toList).all Text.isBlank = false := by
  rw [fieldsOf_eq_nil_iff]
  constructor
  · rintro ⟨breaks, htext, hbreaks⟩
    have hdrop : Csv.dropMark text.toList = Csv.byteOrderMark :: breaks := by
      rw [htext, Csv.dropMark, if_pos rfl]
    rw [hdrop, Csv.dropMark, if_pos rfl]
    exact ⟨hbreaks, rfl⟩
  · rintro ⟨hbreaks, hfilled⟩
    rcases Csv.dropMark_cases (Csv.dropMark text.toList) with ⟨hsame, -⟩ | hmark
    · -- without a second mark the text would be blank
      rw [hsame] at hbreaks
      have hblank : (Csv.dropMark text.toList).all Text.isBlank = true :=
        List.all_eq_true.2 fun c hc => Csv.isBlank_of_isBreak (hbreaks c hc)
      rw [hblank] at hfilled
      cases hfilled
    · rcases Csv.dropMark_cases text.toList with ⟨hsame, hhead⟩ | htext
      · rw [hsame] at hmark
        rw [hmark] at hhead
        exact absurd rfl hhead
      · rw [hmark] at htext
        exact ⟨_, htext, hbreaks⟩

theorem importText_of_blank (h : (Csv.dropMark text.toList).all Text.isBlank = true) :
    importText text = .error .empty := by
  unfold importText
  simp only
  rw [if_pos h]

theorem importText_of_isMarkedTwice (h : IsMarkedTwice text) :
    importText text = .ok ⟨Grid.empty, 0, 0⟩ := by
  obtain ⟨hfields, hfilled⟩ := isMarkedTwice_iff.1 h
  have hrecords : Csv.records (Csv.dropMark text.toList) = [] := List.map_eq_nil_iff.1 hfields
  unfold importText
  simp only [hfilled, Bool.false_eq_true, if_false, hrecords]
  rfl

/-- A text without records is rejected because it is empty, unless it is marked twice. -/
theorem importText_of_no_fields (h : fieldsOf text = []) (hmarked : ¬ IsMarkedTwice text) :
    importText text = .error .empty := by
  refine importText_of_blank ?_
  by_contra hfilled
  exact hmarked (isMarkedTwice_iff.2 ⟨h, eq_false_of_ne_true hfilled⟩)

end Interchange

/-! ### Importing into a workspace -/

namespace Workspace

open Interchange

variable {γ : Type} {w : Workspace γ} {path : String} {content : Content}

theorem importTable_of_ok (hext : TableFile.extension path = "csv")
    (hread : w.files.read path = .ok content) {t : Table} (h : importText content.readable = .ok t) :
    w.importTable path = (true, (w.adopt t).say ("Imported " ++ path)) := by
  have htable : TableFile.read w.files path = .ok t := by
    rw [TableFile.read_of_csv hext, hread]
    exact h
  unfold importTable
  rw [htable]

theorem importTable_of_error (hext : TableFile.extension path = "csv")
    (hread : w.files.read path = .ok content) {e : ImportFault}
    (h : importText content.readable = .error e) :
    w.importTable path = (false, w.say ("Import failed: " ++ e.message)) := by
  have htable : TableFile.read w.files path = .error e := by
    rw [TableFile.read_of_csv hext, hread]
    exact h
  unfold importTable
  rw [htable]

theorem adopt_grid (w : Workspace γ) (t : Table) : (w.adopt t).grid = t.grid := by
  rw [adopt_eq]
  exact change_grid _ _

/-- Importing a file with this text fails and leaves every sheet as it is. -/
def LeavesSheets (text : String) : Prop :=
  ∀ (γ : Type) (w : Workspace γ) (path : String) (content : Content),
    TableFile.extension path = "csv" → w.files.read path = .ok content → content.readable = text →
      (w.importTable path).1 = false ∧ SameSheet w (w.importTable path).2

/-- Importing a file with this text succeeds and leaves no cell on any sheet. -/
def ClearsSheets (text : String) : Prop :=
  ∀ (γ : Type) (w : Workspace γ) (path : String) (content : Content),
    TableFile.extension path = "csv" → w.files.read path = .ok content → content.readable = text →
      (w.importTable path).1 = true ∧ (w.importTable path).2.grid = Grid.empty

theorem leavesSheets_of_error {text : String} {e : ImportFault} (h : importText text = .error e) :
    LeavesSheets text := by
  rintro γ w path content hext hread rfl
  rw [importTable_of_error hext hread h]
  exact ⟨rfl, sameSheet_say w _⟩

theorem clearsSheets_of_empty {text : String} {t : Table} (h : importText text = .ok t)
    (hgrid : t.grid = Grid.empty) : ClearsSheets text := by
  rintro γ w path content hext hread rfl
  rw [importTable_of_ok hext hread h]
  exact ⟨rfl, (adopt_grid w t).trans hgrid⟩

end Workspace

namespace Interchange

/-- An imported table shows the records of its text, and it has at least one record, row and column
exactly if the text is not marked twice.  A text without records is rejected because it is empty,
and its file leaves every sheet as it is, with the same exception: if it is marked twice, it is
imported as a table of no rows, and the sheet loses all its cells. -/
theorem importText_shows (text : String) :
    (∀ t, importText text = .ok t →
        t.Shows (fieldsOf text) ∧
          (fieldsOf text ≠ [] ∧ 1 ≤ t.rows ∧ 1 ≤ t.cols ↔ ¬ IsMarkedTwice text)) ∧
      (fieldsOf text = [] → ¬ IsMarkedTwice text →
        importText text = .error .empty ∧ Workspace.LeavesSheets text) ∧
      (IsMarkedTwice text →
        fieldsOf text = [] ∧ importText text = .ok ⟨Grid.empty, 0, 0⟩ ∧
          Workspace.ClearsSheets text) := by
  refine ⟨fun t ht => ⟨shows_of_importText ht, ?_⟩, fun hnone hmarked => ?_, fun hmarked => ?_⟩
  · -- a table without records comes only from a text that is marked twice
    rw [one_le_iff_of_importText ht, and_self, not_iff_not]
    constructor
    · intro hnone
      by_contra hmarked
      rw [importText_of_no_fields hnone hmarked] at ht
      cases ht
    · exact fun hmarked => (isMarkedTwice_iff.1 hmarked).1
  · have hempty := importText_of_no_fields hnone hmarked
    exact ⟨hempty, Workspace.leavesSheets_of_error hempty⟩
  · have hok := importText_of_isMarkedTwice hmarked
    exact ⟨(isMarkedTwice_iff.1 hmarked).1, hok, Workspace.clearsSheets_of_empty hok rfl⟩

/-- Two lines of two fields, one of them blank, and a mark before an empty line. -/
theorem importText_shows_twoLines :
    (∃ t, importText "a, \n1,b" = .ok t ∧ t.Shows (fieldsOf "a, \n1,b") ∧ 1 ≤ t.rows ∧ 1 ≤ t.cols) ∧
      fieldsOf "\uFEFF\n" = [] ∧ ¬ IsMarkedTwice "\uFEFF\n" ∧
        importText "\uFEFF\n" = .error .empty := by
  have hok : importText "a, \n1,b" =
      .ok ⟨Grid.ofList [(⟨0, 0⟩, "a"), (⟨1, 0⟩, "1"), (⟨1, 1⟩, "b")], 2, 2⟩ := by
    decide +kernel
  have hplain : ¬ IsMarkedTwice "a, \n1,b" := by
    rintro ⟨breaks, htext, -⟩
    have hhead : some 'a' = some Csv.byteOrderMark := congrArg List.head? htext
    exact absurd hhead (by decide)
  have honce : ¬ IsMarkedTwice "\uFEFF\n" := by
    rintro ⟨breaks, htext, -⟩
    have hsecond : some '\n' = some Csv.byteOrderMark := congrArg (·[1]?) htext
    exact absurd hsecond (by decide)
  have hnone : fieldsOf "\uFEFF\n" = [] := by decide +kernel
  obtain ⟨hshows, hshape⟩ := (importText_shows "a, \n1,b").1 _ hok
  exact ⟨⟨_, hok, hshows, (hshape.2 hplain).2⟩, hnone, honce,
    ((importText_shows "\uFEFF\n").2.1 hnone honce).1⟩

/-- Two marks hold no record and are imported nevertheless, as a table without rows. -/
theorem importText_twoMarks :
    fieldsOf "\uFEFF\uFEFF" = [] ∧ importText "\uFEFF\uFEFF" = .ok ⟨Grid.empty, 0, 0⟩ := by
  decide +kernel

end Interchange

end Spreadsheet
