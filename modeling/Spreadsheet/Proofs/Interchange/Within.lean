import Spreadsheet.Files.TableFile
import Spreadsheet.Proofs.Grid.Within
import Spreadsheet.Proofs.Interchange.Pasting

/-!
# Spreadsheet.Proofs.Interchange.Within — pasted and imported cells lie on the sheet

A paste drops what would lie off the sheet, and the rectangle it covers lies on it.  An imported
table has every cell inside its own size, and that size is bounded by the length of the text.
-/

namespace Spreadsheet

namespace Interchange

/-! ### Pasting -/

section Paste

variable {text : String} {origin : Position} {g : Grid} {d : Dimensions}

variable (text origin) in
theorem within_paste (hg : g.Within d) : (paste text origin g d).2.Within d := by
  rcases paste_cases text origin g d with hpaste | ⟨-, -, hpaste⟩
  · rw [hpaste]
    exact hg
  · rw [hpaste]
    exact hg.write fun e he => (List.mem_filter.1 he).2

/-- The rectangle begins at the origin and ends on the sheet. -/
theorem contains_of_paste {r : Range} (h : (paste text origin g d).1 = some r) :
    d.contains r.start = true ∧ d.contains r.stop = true := by
  rcases paste_cases text origin g d with hpaste | ⟨hin, -, hpaste⟩
  · rw [hpaste] at h
    cases h
  · rw [hpaste] at h
    obtain rfl := Option.some.inj h
    exact ⟨hin, d.contains_nearest _⟩

end Paste

end Interchange

/-! ### Reading records -/

namespace Csv

theorem fields_step {r : Reader} {c : Char} :
    (step r c).2.fields.length ≤ r.fields.length + 1 ∧
      ∀ record ∈ (step r c).1, record.fields.length = r.fields.length + 1 := by
  unfold step
  cases r.place <;> simp only <;> (repeat' split) <;>
    simp [Reader.add, Reader.endField, Reader.next, Reader.record]

theorem length_readFrom (r : Reader) (cs : List Char) : (readFrom r cs).length ≤ cs.length + 1 := by
  induction cs generalizing r with
  | nil =>
    rw [readFrom]
    split <;> simp
  | cons c cs ih =>
    have hrest := ih (step r c).2
    have hone : (step r c).1.toList.length ≤ 1 := by cases (step r c).1 <;> simp
    rw [readFrom, List.length_append, List.length_cons]
    omega

theorem fields_readFrom (r : Reader) (cs : List Char) :
    ∀ record ∈ readFrom r cs, record.fields.length ≤ r.fields.length + cs.length + 1 := by
  induction cs generalizing r with
  | nil =>
    intro record hrecord
    rw [readFrom] at hrecord
    split at hrecord
    · cases hrecord
    · obtain rfl := List.mem_singleton.1 hrecord
      simp [Reader.record]
  | cons c cs ih =>
    intro record hrecord
    obtain ⟨hnext, hended⟩ := fields_step (r := r) (c := c)
    rw [readFrom] at hrecord
    rw [List.length_cons]
    rcases List.mem_append.1 hrecord with hrecord | hrecord
    · have := hended record (Option.mem_toList.1 hrecord)
      omega
    · have := ih (step r c).2 record hrecord
      omega

theorem length_dropMark (cs : List Char) : (dropMark cs).length ≤ cs.length := by
  unfold dropMark
  split
  · simp
  · split <;> simp

end Csv

/-! ### Importing -/

/-- Every cell of a table lies inside the table's own size. -/
def Table.IsTight (t : Table) : Prop :=
  ∀ e ∈ t.grid.entries, e.1.row < t.rows ∧ e.1.col < t.cols

namespace Interchange

theorem mem_recordCells {row : Nat} {fields : List (List Char)} {e : Position × String}
    (h : e ∈ recordCells row fields) : e.1.row = row ∧ e.1.col < fields.length := by
  obtain ⟨f, hf, rfl⟩ := List.mem_map.1 h
  exact ⟨rfl, (List.mem_zipIdx' hf).1⟩

theorem fields_of_mismatch?_none {expected : Nat} {records : List Csv.Record}
    (h : mismatch? expected records = none) : ∀ r ∈ records, r.fields.length = expected := by
  intro r hr
  simp only [mismatch?, Option.map_eq_none_iff, List.find?_eq_none] at h
  simpa using h r hr

/-- An imported table is tight, and no larger than the text is long. -/
theorem importText_spec {text : String} {t : Table} (h : importText text = .ok t) :
    t.IsTight ∧ t.rows ≤ text.toList.length + 1 ∧ t.cols ≤ text.toList.length + 1 := by
  have hmark := Csv.length_dropMark text.toList
  have hmark' := Csv.length_dropMark (Csv.dropMark text.toList)
  have hcount := Csv.length_readFrom .atStart (Csv.dropMark (Csv.dropMark text.toList))
  have hwidth := Csv.fields_readFrom .atStart (Csv.dropMark (Csv.dropMark text.toList))
  unfold importText at h
  simp only [Csv.records] at h
  generalize Csv.readFrom .atStart (Csv.dropMark (Csv.dropMark text.toList)) = records at *
  split_ifs at h
  split at h
  · cases h
  · rename_i hmis
    obtain rfl := Except.ok.inj h
    -- all records have as many fields as the first
    have hfields := fields_of_mismatch?_none hmis
    refine ⟨?_, by simp only; omega, ?_⟩
    · intro e he
      obtain ⟨r, hr, he⟩ := List.mem_flatMap.1 (Grid.mem_of_mem_ofLastTexts he)
      obtain ⟨hrow, hcol⟩ := mem_recordCells he
      obtain ⟨hlt, hget⟩ := List.mem_zipIdx' hr
      have hmem : r.1 ∈ records := hget ▸ List.getElem_mem hlt
      exact ⟨hrow ▸ hlt, hfields r.1 hmem ▸ hcol⟩
    · cases hrec : records with
      | nil => simp
      | cons r rs =>
        have := hwidth r (hrec ▸ List.mem_cons_self)
        simp only [Csv.Reader.atStart, List.length_nil] at this
        simp only [List.head?_cons, Option.map_some, Option.getD_some]
        omega

end Interchange

/-! ### Files -/

/-- Every file is short enough for its characters to be counted by a word. -/
def FileSystem.FitsMemory (fs : FileSystem) : Prop :=
  ∀ path content, fs.read path = .ok content → content.readable.toList.length + 1 < Word.size

theorem FileSystem.fitsMemory_empty : FileSystem.empty.FitsMemory := by
  intro path content h
  have hnode (place : List String) (c : Content) : FileSystem.empty.node? place ≠ some (.file c) := by
    unfold FileSystem.node? FileSystem.empty
    split_ifs <;> simp
  unfold FileSystem.read at h
  cases hp : FileSystem.empty.place path with
  | error e => simp [hp, bind, Except.bind] at h
  | ok place =>
    simp only [hp, bind, Except.bind] at h
    split at h
    · cases h
    · cases h
    · rename_i c hc
      exact absurd hc (hnode place c)

/-- A table read from a file is tight, and its numbers of rows and columns are words. -/
theorem TableFile.read_spec {fs : FileSystem} {path : String} {t : Table} (hfits : fs.FitsMemory)
    (h : TableFile.read fs path = .ok t) : t.IsTight ∧ t.rows < Word.size ∧ t.cols < Word.size := by
  unfold TableFile.read at h
  cases ha : accept path with
  | error e => simp [ha, bind, Except.bind] at h
  | ok u =>
    cases hr : fs.read path with
    | error e => simp [ha, hr, bind, Except.bind] at h
    | ok content =>
      simp only [ha, hr, bind, Except.bind] at h
      obtain ⟨htight, hrows, hcols⟩ := Interchange.importText_spec h
      have := hfits path content hr
      exact ⟨htight, by omega, by omega⟩

end Spreadsheet
