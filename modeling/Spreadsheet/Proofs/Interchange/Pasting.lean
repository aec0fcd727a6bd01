import Spreadsheet.Proofs.Address.Rectangle
import Spreadsheet.Proofs.Grid.Entries
import Spreadsheet.Proofs.Interchange.Lines

/-!
# Spreadsheet.Proofs.Interchange.Pasting — where the fields of a text go

Field `j` of line `i` goes `i` rows down and `j` columns right from the cell at which a text is
pasted.  A paste on the sheet has a result exactly if the block of its fields ends in the words; then
every place is one, a cell on the sheet has its field, or nothing if that is blank, and all other
cells have what they had.
-/

namespace Spreadsheet

namespace Interchange

/-- A field of lines of fields. -/
def fieldAt (rows : List (List String)) (i j : Nat) : Option String := rows[i]?.bind fun r => r[j]?

/-- The row and the column behind a block of fields are words. -/
def EndsInWords (p : Position) (rows : List (List String)) : Prop :=
  p.row + rows.length < Word.size ∧ p.col + widest rows < Word.size

/-- The fields of lines with their places from `p` to the right and downwards, counted without end. -/
def placedRows (p : Position) (rows : List (List String)) : List (Position × String) :=
  rows.zipIdx.flatMap fun r => r.1.zipIdx.map fun f => (⟨p.row + r.2, p.col + f.2⟩, f.1)

/-- The grid with lines of fields written from `p` to the right and downwards, as far as the sheet
goes. -/
def pasteRows (dims : Dimensions) (p : Position) (g : Grid) (rows : List (List String)) : Grid :=
  g.write ((placedRows p rows).filter fun e => dims.contains e.1)

theorem fieldAt_eq_some_iff {rows : List (List String)} {i j : Nat} {t : String} :
    fieldAt rows i j = some t ↔ ∃ r, rows[i]? = some r ∧ r[j]? = some t := Option.bind_eq_some_iff

/-! ### The size of a block -/

theorem widest_le_iff {rows : List (List String)} {n : Nat} :
    widest rows ≤ n ↔ ∀ row ∈ rows, row.length ≤ n := by
  have hfold (rs : List (List String)) (m : Nat) :
      rs.foldl (fun m r => max m r.length) m ≤ n ↔ m ≤ n ∧ ∀ r ∈ rs, r.length ≤ n := by
    induction rs generalizing m with
    | nil => simp
    | cons r rs ih => rw [List.foldl_cons, ih, List.forall_mem_cons, Nat.max_le, and_assoc]
  rw [widest, hfold rows 0, and_iff_right (Nat.zero_le n)]

theorem length_le_widest {rows : List (List String)} {row : List String} (h : row ∈ rows) :
    row.length ≤ widest rows :=
  widest_le_iff.1 (Nat.le_refl _) row h

/-- A line that is as long as any other has the length of the longest. -/
theorem widest_eq {rows : List (List String)} {n : Nat} (hmem : ∃ row ∈ rows, row.length = n)
    (hle : ∀ row ∈ rows, row.length ≤ n) : widest rows = n := by
  obtain ⟨row, hrow, rfl⟩ := hmem
  exact Nat.le_antisymm (widest_le_iff.2 hle) (length_le_widest hrow)

theorem fieldAt_lt {rows : List (List String)} {i j : Nat} {t : String}
    (h : fieldAt rows i j = some t) : i < rows.length ∧ j < widest rows := by
  obtain ⟨r, hr, hf⟩ := fieldAt_eq_some_iff.1 h
  obtain ⟨hi, hget⟩ := List.getElem?_eq_some_iff.1 hr
  obtain ⟨hj, -⟩ := List.getElem?_eq_some_iff.1 hf
  exact ⟨hi, Nat.lt_of_lt_of_le hj (length_le_widest (hget ▸ List.getElem_mem hi))⟩

/-- Every text has a line, and every line a field. -/
theorem size_fieldRows_pos (text : String) :
    0 < (fieldRows text).length ∧ 0 < widest (fieldRows text) := by
  have hlines := splitAt_ne_nil '\n' (dropFinalBreak (unifyBreaks text.toList))
  rw [fieldRows, List.length_map]
  refine ⟨List.length_pos_iff.2 hlines, ?_⟩
  obtain ⟨line, hline⟩ := List.exists_mem_of_ne_nil _ hlines
  refine Nat.lt_of_lt_of_le ?_ (length_le_widest (List.mem_map_of_mem hline))
  rw [List.length_map]
  exact List.length_pos_iff.2 (splitAt_ne_nil '\t' line)

/-! ### Places -/

section Places

variable {p q : Position} {rows : List (List String)}

/-- Every field has its place, and no place has anything else. -/
theorem mem_placedRows {e : Position × String} :
    e ∈ placedRows p rows ↔
      ∃ i j, e.1 = ⟨p.row + i, p.col + j⟩ ∧ fieldAt rows i j = some e.2 := by
  rw [placedRows, List.mem_flatMap]
  constructor
  · rintro ⟨⟨r, i⟩, hr, he⟩
    obtain ⟨⟨f, j⟩, hf, rfl⟩ := List.mem_map.1 he
    exact ⟨i, j, rfl, fieldAt_eq_some_iff.2
      ⟨r, List.mem_zipIdx_iff_getElem?.1 hr, List.mem_zipIdx_iff_getElem?.1 hf⟩⟩
  · rintro ⟨i, j, hpos, hfield⟩
    obtain ⟨r, hget, hfield⟩ := fieldAt_eq_some_iff.1 hfield
    refine ⟨(r, i), List.mem_zipIdx_iff_getElem?.2 hget, List.mem_map.2 ⟨(e.2, j), ?_, ?_⟩⟩
    · exact List.mem_zipIdx_iff_getElem?.2 hfield
    · rw [← hpos]

/-- If each element has its result, so has the list. -/
theorem mapM_eq_some_map {α β : Type} {l : List α} {f : α → Option β} {g : α → β}
    (h : ∀ a ∈ l, f a = some (g a)) : l.mapM f = some (l.map g) := by
  induction l with
  | nil => rfl
  | cons a l ih =>
    obtain ⟨ha, hl⟩ := List.forall_mem_cons.1 h
    rw [List.mapM_cons, ha, ih hl]
    rfl

theorem placedLine?_eq {fields : List String} (h : p.col + fields.length ≤ Word.size) :
    placedLine? p fields = some (fields.zipIdx.map fun f => (⟨p.row, p.col + f.2⟩, f.1)) := by
  refine mapM_eq_some_map fun f hf => ?_
  have hlt := (List.mem_zipIdx' hf).1
  rw [Word.add?_eq (by omega), Option.map_some]

/-- In a block that ends in the words, the place of every field is a pair of words. -/
theorem placedRows?_eq (h : EndsInWords p rows) : placedRows? p rows = some (placedRows p rows) := by
  have hlines : (rows.zipIdx.mapM fun r =>
      (Word.add? p.row r.2).bind fun row => placedLine? ⟨row, p.col⟩ r.1) =
        some (rows.zipIdx.map fun r =>
          r.1.zipIdx.map fun f => (⟨p.row + r.2, p.col + f.2⟩, f.1)) := by
    refine mapM_eq_some_map fun r hr => ?_
    obtain ⟨hlt, hget⟩ := List.mem_zipIdx' hr
    have hwide : r.1.length ≤ widest rows := length_le_widest (hget ▸ List.getElem_mem hlt)
    have hrow := h.1
    have hcol := h.2
    rw [Word.add?_eq (by omega), Option.bind_some, placedLine?_eq (by simp only; omega)]
  rw [placedRows?, hlines, Option.map_some, placedRows, List.flatMap_def]

variable {g : Grid} {d : Dimensions}

theorem pasteRows?_eq (h : EndsInWords p rows) :
    pasteRows? d p g rows = some (pasteRows d p g rows) := by
  rw [pasteRows?, placedRows?_eq h, Option.map_some, pasteRows]

/-- A cell on the sheet has the field that goes there. -/
theorem get?_pasteRows_of_field {i j : Nat} {t : String}
    (hin : d.contains ⟨p.row + i, p.col + j⟩ = true) (ht : fieldAt rows i j = some t) :
    (pasteRows d p g rows).get? ⟨p.row + i, p.col + j⟩ =
      if Text.isBlankText t = true then none else some t := by
  have hmem := (mem_placedRows (p := p) (e := (_, t))).2 ⟨i, j, rfl, ht⟩
  refine Grid.get?_write_of_mem (List.mem_filter.2 ⟨hmem, hin⟩) fun e he hpos => ?_
  obtain ⟨i', j', hplace, ht'⟩ := mem_placedRows.1 (List.mem_filter.1 he).1
  rw [hpos, Position.mk.injEq] at hplace
  -- no other field has this place
  obtain rfl := Nat.add_left_cancel hplace.1
  obtain rfl := Nat.add_left_cancel hplace.2
  exact Option.some.inj (ht'.symm.trans ht)

/-- A cell keeps its text if no field goes there, or it does not lie on the sheet. -/
theorem get?_pasteRows_of_none
    (hq : ∀ i j t, fieldAt rows i j = some t → q = ⟨p.row + i, p.col + j⟩ → d.contains q = false) :
    (pasteRows d p g rows).get? q = g.get? q := by
  refine Grid.get?_write_of_not_mem ?_
  rintro e he rfl
  obtain ⟨hmem, hin⟩ := List.mem_filter.1 he
  obtain ⟨i, j, hplace, ht⟩ := mem_placedRows.1 hmem
  rw [hq i j e.2 ht hplace] at hin
  cases hin

end Places

/-! ### The whole block -/

section Paste

variable {text : String} {origin : Position} {g : Grid} {d : Dimensions}

/-- The part on the sheet of a block of fields. -/
def coveredRange (origin : Position) (rows : List (List String)) (d : Dimensions) : Range :=
  ⟨origin, d.nearest ⟨origin.row + (rows.length - 1), origin.col + (widest rows - 1)⟩⟩

/-- Every field that lands on the sheet does so in the covered range. -/
theorem get?_pasteRows_of_outside {rows : List (List String)} {q : Position}
    (horigin : d.contains origin = true) (hq : (coveredRange origin rows d).contains q = false) :
    (pasteRows d origin g rows).get? q = g.get? q := by
  refine get?_pasteRows_of_none fun i j t ht hplace => ?_
  obtain ⟨hi, hj⟩ := fieldAt_lt ht
  rw [Bool.eq_false_iff, ne_eq, Range.contains_iff] at hq
  rw [Dimensions.contains_iff] at horigin
  rw [Bool.eq_false_iff, ne_eq, Dimensions.contains_iff]
  simp only [coveredRange, Dimensions.nearest, hplace] at hq ⊢
  omega

/-- The far edge is the last line of the block or that of the sheet. -/
theorem farEdge?_eq {first count : Nat} (size : Nat) (hpos : 0 < count)
    (hword : first + count < Word.size) :
    farEdge? first count size = some (min (first + (count - 1)) (size - 1)) := by
  rw [farEdge?, Word.add?_eq hword, Option.bind_eq_bind, Option.bind_some,
    Word.sub?_eq (by omega), Nat.add_sub_assoc hpos]
  rfl

theorem farEdge?_eq_none {first count : Nat} (size : Nat) (hword : Word.size ≤ first + count) :
    farEdge? first count size = none := by
  rw [farEdge?, Word.add?_eq_none_iff.2 hword]
  rfl

variable (g) in
theorem paste?_of_not_contains (h : d.contains origin = false) :
    paste? text origin g d = some (none, g) :=
  if_neg (by rw [h]; exact Bool.false_ne_true)

variable (g) in
/-- What a paste on the sheet comes to, if its block ends in the words. -/
theorem paste?_of_endsInWords (h : d.contains origin = true)
    (hends : EndsInWords origin (fieldRows text)) :
    paste? text origin g d = some (some (coveredRange origin (fieldRows text) d),
      pasteRows d origin g (fieldRows text)) := by
  obtain ⟨hheight, hwidth⟩ := size_fieldRows_pos text
  rw [paste?, if_pos h]
  simp only [pasteRows?_eq hends, farEdge?_eq d.rows hheight hends.1,
    farEdge?_eq d.cols hwidth hends.2, Option.bind_eq_bind, Option.bind_some]
  rfl

/-- A paste has no result exactly if it begins on the sheet and its block does not end in the
words. -/
theorem paste?_eq_none_iff :
    paste? text origin g d = none ↔
      d.contains origin = true ∧ ¬ EndsInWords origin (fieldRows text) := by
  constructor
  · intro hnone
    -- off the sheet a paste has a result, that nothing is pasted
    have h : d.contains origin = true := by
      by_contra hoff
      rw [paste?_of_not_contains g (Bool.eq_false_iff.2 hoff)] at hnone
      cases hnone
    refine ⟨h, fun hends => ?_⟩
    rw [paste?_of_endsInWords g h hends] at hnone
    cases hnone
  · rintro ⟨h, hends⟩
    rw [paste?, if_pos h]
    -- whatever the places come to, one of the far edges has no result
    rcases not_and_or.1 hends with hrows | hcols
    · simp only [farEdge?_eq_none d.rows (Nat.le_of_not_lt hrows), Option.bind_eq_bind,
        Option.bind_none, Option.bind_fun_none]
    · simp only [farEdge?_eq_none d.cols (Nat.le_of_not_lt hcols), Option.bind_eq_bind,
        Option.bind_none, Option.bind_fun_none]

/-- A paste with a result is off the sheet, or the block ends in the words. -/
theorem paste?_eq_some {result : Option Range × Grid} (h : paste? text origin g d = some result) :
    (d.contains origin = false ∧ result = (none, g)) ∨
    (d.contains origin = true ∧ EndsInWords origin (fieldRows text) ∧
      result = (some (coveredRange origin (fieldRows text) d),
        pasteRows d origin g (fieldRows text))) := by
  cases hin : d.contains origin with
  | false =>
    rw [paste?_of_not_contains g hin] at h
    exact .inl ⟨rfl, (Option.some.inj h).symm⟩
  | true =>
    have hends : EndsInWords origin (fieldRows text) := by
      by_contra hends
      rw [paste?_eq_none_iff.2 ⟨hin, hends⟩] at h
      cases h
    rw [paste?_of_endsInWords g hin hends] at h
    exact .inr ⟨rfl, hends, (Option.some.inj h).symm⟩

theorem paste_eq_of_paste? {result : Option Range × Grid} (h : paste? text origin g d = some result) :
    paste text origin g d = result := by
  rw [paste, h, Option.getD_some]

variable (text origin g d) in
/-- A paste comes to nothing, or it is one on the sheet whose block ends in the words. -/
theorem paste_cases : paste text origin g d = (none, g) ∨
    (d.contains origin = true ∧ EndsInWords origin (fieldRows text) ∧
      paste text origin g d = (some (coveredRange origin (fieldRows text) d),
        pasteRows d origin g (fieldRows text))) := by
  cases h : paste? text origin g d with
  | none => exact .inl (by rw [paste, h, Option.getD_none])
  | some result =>
    rw [paste_eq_of_paste? h]
    rcases paste?_eq_some h with ⟨-, rfl⟩ | ⟨hin, hends, rfl⟩
    · exact .inl rfl
    · exact .inr ⟨hin, hends, rfl⟩

end Paste

end Interchange

end Spreadsheet
