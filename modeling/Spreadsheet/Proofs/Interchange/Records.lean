import Spreadsheet.Interchange.Csv
import Spreadsheet.Text.Blank

/-!
# Spreadsheet.Proofs.Interchange.Records — written records are read back

Behind the text of a field the reader has exactly that field, in quotes or not, and a comma or a line
feed ends it.  So a record is read back from its text, whatever follows, and the records of a table
from theirs.  Only the mark that may stand at the start of a text can be taken for something else: a
first field that begins with it and is written without quotes loses it.
-/

namespace Spreadsheet

namespace Csv

theorem readFrom_step {r r' : Reader} {c : Char} (h : step r c = (none, r')) (cs : List Char) :
    readFrom r (c :: cs) = readFrom r' cs := by
  rw [readFrom, h]
  rfl

theorem readFrom_record {r r' : Reader} {c : Char} {record : Record}
    (h : step r c = (some record, r')) (cs : List Char) :
    readFrom r (c :: cs) = record :: readFrom r' cs := by
  rw [readFrom, h]
  rfl

theorem isSpecial_iff {c : Char} : isSpecial c = false ↔ c ≠ ',' ∧ c ≠ '"' ∧ c ≠ '\n' ∧ c ≠ '\r' := by
  simp [isSpecial, and_assoc]

theorem isBreak_of_not_isSpecial {c : Char} (h : isSpecial c = false) : isBreak c = false := by
  obtain ⟨-, -, hlf, hcr⟩ := isSpecial_iff.1 h
  simp [isBreak, hlf, hcr]

/-! ### Fields -/

/-- The places at which a field begins. -/
def Place.Begins (p : Place) : Prop := p = .recordStart ∨ p = .fieldStart

section Fields

variable (line start : Nat) (fields : List (List Char)) (field : List Char)

/-- Outside quotes characters without a meaning of their own are taken as they stand. -/
theorem readFrom_unquoted {cs : List Char} (h : ∀ c ∈ cs, isSpecial c = false) (rest : List Char) :
    readFrom ⟨.unquoted, line, start, fields, field⟩ (cs ++ rest) =
      readFrom ⟨.unquoted, line, start, fields, cs.reverse ++ field⟩ rest := by
  induction cs generalizing field with
  | nil => rfl
  | cons c cs ih =>
    have hc := h c List.mem_cons_self
    have hstep : step ⟨.unquoted, line, start, fields, field⟩ c =
        (none, ⟨.unquoted, line, start, fields, c :: field⟩) := by
      simp [step, (isSpecial_iff.1 hc).1, isBreak_of_not_isSpecial hc, Reader.add]
    rw [List.cons_append, readFrom_step hstep,
      ih (c :: field) fun d hd => h d (List.mem_cons_of_mem c hd), List.reverse_cons,
      List.append_assoc]
    rfl

/-- Inside quotes everything is taken as it stands, up to the quote that closes them. -/
theorem readFrom_doubleQuotes (cs rest : List Char) :
    ∃ line', readFrom ⟨.quoted, line, start, fields, field⟩ (doubleQuotes cs ++ '"' :: rest) =
      readFrom ⟨.quoteSeen, line', start, fields, cs.reverse ++ field⟩ rest := by
  induction cs generalizing line field with
  | nil => exact ⟨line, readFrom_step rfl rest⟩
  | cons c cs ih =>
    -- a quote is written twice, and the second one is read as itself
    by_cases hquote : c = '"'
    · subst hquote
      obtain ⟨line', hline'⟩ := ih line ('"' :: field)
      refine ⟨line', ?_⟩
      have htext : doubleQuotes ('"' :: cs) = '"' :: '"' :: doubleQuotes cs := rfl
      rw [htext, List.cons_append, List.cons_append, readFrom_step rfl, readFrom_step rfl,
        List.reverse_cons, List.append_assoc]
      exact hline'
    · obtain ⟨line', hline'⟩ := ih (if c = '\n' then line + 1 else line) (c :: field)
      refine ⟨line', ?_⟩
      have htext : doubleQuotes (c :: cs) = c :: doubleQuotes cs := by
        rw [doubleQuotes, List.flatMap_cons, if_neg hquote]
        rfl
      have hstep : step ⟨.quoted, line, start, fields, field⟩ c =
          (none, ⟨.quoted, if c = '\n' then line + 1 else line, start, fields, c :: field⟩) := by
        simp [step, hquote, Reader.add]
      rw [htext, List.cons_append, readFrom_step hstep, List.reverse_cons, List.append_assoc]
      exact hline'

/-- Behind the text of a field the reader has the field, and it stands where it did only if the field
is empty. -/
theorem readFrom_fieldText {place : Place} (hplace : place.Begins) (cs rest : List Char) :
    ∃ place' line', readFrom ⟨place, line, start, fields, []⟩ (fieldText cs ++ rest) =
        readFrom ⟨place', line', start, fields, cs.reverse⟩ rest ∧
      (place' = .unquoted ∨ place' = .quoteSeen ∨ place' = place ∧ cs = []) := by
  -- a field with special characters stands in quotes, any other one as it is
  by_cases hspecial : cs.any isSpecial = true
  · obtain ⟨line', hline'⟩ := readFrom_doubleQuotes line start fields [] cs rest
    refine ⟨.quoteSeen, line', ?_, .inr (.inl rfl)⟩
    have hopen : step ⟨place, line, start, fields, []⟩ '"' =
        (none, ⟨.quoted, line, start, fields, []⟩) := by
      rcases hplace with rfl | rfl <;> rfl
    rw [fieldText, if_pos hspecial, List.cons_append, List.append_assoc, List.singleton_append,
      readFrom_step hopen, hline', List.append_nil]
  · have hplain : ∀ c ∈ cs, isSpecial c = false := by simpa using hspecial
    rw [fieldText, if_neg hspecial]
    cases cs with
    | nil => exact ⟨place, line, rfl, .inr (.inr ⟨rfl, rfl⟩)⟩
    | cons c cs =>
      refine ⟨.unquoted, line, ?_, .inl rfl⟩
      have hc := hplain c List.mem_cons_self
      obtain ⟨hcomma, hquote, -, -⟩ := isSpecial_iff.1 hc
      have hstep : step ⟨place, line, start, fields, []⟩ c =
          (none, ⟨.unquoted, line, start, fields, [c]⟩) := by
        rcases hplace with rfl | rfl <;>
          simp [step, hcomma, hquote, isBreak_of_not_isSpecial hc, Reader.add]
      rw [List.cons_append, readFrom_step hstep,
        readFrom_unquoted line start fields [c] fun d hd => hplain d (List.mem_cons_of_mem c hd),
        List.reverse_cons]

theorem readFrom_fieldText_comma {place : Place} (hplace : place.Begins) (cs rest : List Char) :
    ∃ line', readFrom ⟨place, line, start, fields, []⟩ (fieldText cs ++ ',' :: rest) =
      readFrom ⟨.fieldStart, line', start, cs :: fields, []⟩ rest := by
  obtain ⟨place', line', hread, hbehind⟩ := readFrom_fieldText line start fields hplace cs (',' :: rest)
  refine ⟨line', ?_⟩
  have hstep : step ⟨place', line', start, fields, cs.reverse⟩ ',' =
      (none, ⟨.fieldStart, line', start, cs :: fields, []⟩) := by
    rcases hbehind with rfl | rfl | ⟨rfl, -⟩
    · simp [step, Reader.endField]
    · simp [step, Reader.endField]
    · rcases hplace with rfl | rfl <;> simp [step, Reader.endField, isBreak]
  rw [hread, readFrom_step hstep]

/-- A line feed behind a field ends the record, unless the record would be an empty line. -/
theorem readFrom_fieldText_break {place : Place} (hplace : place.Begins) {cs : List Char}
    (hcs : cs ≠ [] ∨ place = .fieldStart) (rest : List Char) :
    ∃ line', readFrom ⟨place, line, start, fields, []⟩ (fieldText cs ++ '\n' :: rest) =
      ⟨start, (cs :: fields).reverse⟩ :: readFrom (.next line') rest := by
  obtain ⟨place', line', hread, hbehind⟩ := readFrom_fieldText line start fields hplace cs ('\n' :: rest)
  refine ⟨line' + 1, ?_⟩
  have hstep : step ⟨place', line', start, fields, cs.reverse⟩ '\n' =
      (some ⟨start, (cs :: fields).reverse⟩, .next (line' + 1)) := by
    rcases hbehind with rfl | rfl | ⟨rfl, rfl⟩
    · simp [step, Reader.record, isBreak]
    · simp [step, Reader.record, isBreak]
    · obtain rfl := hcs.resolve_left fun h => h rfl
      simp [step, Reader.record, isBreak]
  rw [hread, readFrom_record hstep]

end Fields

/-! ### Records -/

/-- The fields of a line are read up to its line feed; `fields` have been read before, last first. -/
theorem readFrom_fields {place : Place} (hplace : place.Begins) (line start : Nat)
    (fields : List (List Char)) (f : List Char) (fs : List (List Char)) (rest : List Char)
    (hline : f ≠ [] ∨ fs ≠ [] ∨ place = .fieldStart) :
    ∃ line', readFrom ⟨place, line, start, fields, []⟩
        (Interchange.joinWith ',' ((f :: fs).map fieldText) ++ '\n' :: rest) =
      ⟨start, fields.reverse ++ f :: fs⟩ :: readFrom (.next line') rest := by
  -- the last field ends with the line, each one before it with a comma
  induction fs generalizing place line fields f with
  | nil =>
    have hcs : f ≠ [] ∨ place = .fieldStart := hline.imp_right fun h => h.resolve_left fun h => h rfl
    obtain ⟨line', hread⟩ := readFrom_fieldText_break line start fields hplace hcs rest
    refine ⟨line', ?_⟩
    rw [List.reverse_cons] at hread
    exact hread
  | cons g fs ih =>
    obtain ⟨line₁, hcomma⟩ := readFrom_fieldText_comma line start fields hplace f
      (Interchange.joinWith ',' ((g :: fs).map fieldText) ++ '\n' :: rest)
    obtain ⟨line₂, hread⟩ := ih (.inr rfl) line₁ (f :: fields) g (.inr (.inr rfl))
    refine ⟨line₂, ?_⟩
    have htext : Interchange.joinWith ',' ((f :: g :: fs).map fieldText) ++ '\n' :: rest =
        fieldText f ++ ',' :: (Interchange.joinWith ',' ((g :: fs).map fieldText) ++ '\n' :: rest) :=
      List.append_assoc ..
    rw [htext, hcomma, hread, List.reverse_cons, List.append_assoc]
    rfl

theorem recordText_eq {record : List (List Char)} (h : record ≠ [[]]) :
    recordText record = Interchange.joinWith ',' (record.map fieldText) ++ ['\n'] := by
  rw [recordText]
  exact h

/-- A record is read back from its text, whatever follows. -/
theorem readFrom_recordText {record : List (List Char)} (h : record ≠ []) (line start : Nat)
    (rest : List Char) :
    ∃ line', readFrom ⟨.recordStart, line, start, [], []⟩ (recordText record ++ rest) =
      ⟨start, record⟩ :: readFrom (.next line') rest := by
  by_cases hempty : record = [[]]
  · subst hempty
    exact ⟨line + 1, rfl⟩
  · obtain ⟨f, fs, rfl⟩ := List.exists_cons_of_ne_nil h
    have hline : f ≠ [] ∨ fs ≠ [] ∨ Place.recordStart = .fieldStart := by
      by_cases hf : f = []
      · exact .inr (.inl fun hfs => hempty (by rw [hf, hfs]))
      · exact .inl hf
    rw [recordText_eq hempty, List.append_assoc]
    exact readFrom_fields (.inl rfl) line start [] f fs rest hline

/-- The records of a table are read back from its text. -/
theorem map_fields_readFrom_text {rs : List (List (List Char))} (h : ∀ r ∈ rs, r ≠ [])
    (line start : Nat) :
    (readFrom ⟨.recordStart, line, start, [], []⟩ (text rs)).map Record.fields = rs := by
  induction rs generalizing line start with
  | nil => rfl
  | cons r rs ih =>
    obtain ⟨line', hread⟩ := readFrom_recordText (h r List.mem_cons_self) line start (text rs)
    have htext : text (r :: rs) = recordText r ++ text rs := rfl
    rw [htext, hread, List.map_cons, Reader.next, ih fun s hs => h s (List.mem_cons_of_mem r hs)]

/-! ### The mark at the start -/

/-- A field that is written as it stands and begins with the mark. -/
def IsMarked (cs : List Char) : Prop :=
  cs.head? = some byteOrderMark ∧ ∀ c ∈ cs, isSpecial c = false

theorem fieldText_of_plain {cs : List Char} (h : ∀ c ∈ cs, isSpecial c = false) :
    fieldText cs = cs := by
  rw [fieldText, if_neg]
  simpa using h

theorem joinWith_cons (sep : Char) (piece : List Char) (pieces : List (List Char)) :
    ∃ tail, Interchange.joinWith sep (piece :: pieces) = piece ++ tail := by
  cases pieces with
  | nil => exact ⟨[], (List.append_nil piece).symm⟩
  | cons next pieces => exact ⟨_, rfl⟩

/-- The text of a record begins with its first field as it stands, or with a quote or a comma. -/
theorem recordText_cases (f : List Char) (fs : List (List Char)) :
    (∃ tail, recordText (f :: fs) = '"' :: tail) ∨ (∃ tail, recordText (f :: fs) = ',' :: tail) ∨
      f ≠ [] ∧ (∀ c ∈ f, isSpecial c = false) ∧ ∃ tail, recordText (f :: fs) = f ++ tail := by
  by_cases hf : f = []
  · subst hf
    cases fs with
    | nil => exact .inl ⟨['"', '\n'], rfl⟩
    | cons g fs => exact .inr (.inl ⟨_, rfl⟩)
  · have hne : f :: fs ≠ [[]] := fun h => hf (List.cons.inj h).1
    obtain ⟨tail, htail⟩ := joinWith_cons ',' (fieldText f) (fs.map fieldText)
    rw [recordText_eq hne, List.map_cons, htail, List.append_assoc]
    by_cases hspecial : f.any isSpecial = true
    · rw [fieldText, if_pos hspecial]
      exact .inl ⟨_, rfl⟩
    · have hplain : ∀ c ∈ f, isSpecial c = false := by simpa using hspecial
      rw [fieldText_of_plain hplain]
      exact .inr (.inr ⟨hf, hplain, _, rfl⟩)

/-- A table whose first field is not marked is read as it was written. -/
theorem dropMark_text {f : List Char} (hf : ¬ IsMarked f) (fs : List (List Char))
    (rs : List (List (List Char))) : dropMark (text ((f :: fs) :: rs)) = text ((f :: fs) :: rs) := by
  have htext : text ((f :: fs) :: rs) = recordText (f :: fs) ++ text rs := rfl
  rcases recordText_cases f fs with ⟨tail, h⟩ | ⟨tail, h⟩ | ⟨hne, hplain, tail, h⟩
  · rw [htext, h]
    rfl
  · rw [htext, h]
    rfl
  · obtain ⟨c, cs, rfl⟩ := List.exists_cons_of_ne_nil hne
    have hc : c ≠ byteOrderMark := by
      rintro rfl
      exact hf ⟨rfl, hplain⟩
    rw [htext, h, List.cons_append, List.cons_append, dropMark, if_neg hc]

/-- A table whose first field is marked is read as if the field did not have its mark; if nothing is
left of its first line, that line is skipped. -/
theorem dropMark_text_of_marked {cs : List Char} (h : ∀ c ∈ cs, isSpecial c = false)
    (fs : List (List Char)) (rs : List (List (List Char))) :
    dropMark (text (((byteOrderMark :: cs) :: fs) :: rs)) =
      if cs = [] ∧ fs = [] then '\n' :: text rs else text ((cs :: fs) :: rs) := by
  have hmarked : ∀ c ∈ byteOrderMark :: cs, isSpecial c = false := by
    intro c hc
    rcases List.mem_cons.1 hc with rfl | hc
    · rfl
    · exact h c hc
  have hne : (byteOrderMark :: cs) :: fs ≠ [[]] := fun heq => nomatch (List.cons.inj heq).1
  have htext : ∀ record, text (record :: rs) = recordText record ++ text rs := fun _ => rfl
  rw [htext, recordText_eq hne, List.map_cons, fieldText_of_plain hmarked]
  -- with other fields the line does not become empty
  cases fs with
  | nil =>
    by_cases hcs : cs = []
    · subst hcs
      rfl
    · have hone : [cs] ≠ [[]] := fun heq => hcs (List.cons.inj heq).1
      rw [if_neg fun hempty => hcs hempty.1, htext, recordText_eq hone, List.map_cons,
        fieldText_of_plain h]
      rfl
  | cons g fs =>
    have htwo : cs :: g :: fs ≠ [[]] := fun heq => nomatch (List.cons.inj heq).2
    have hline : ¬ (cs = [] ∧ g :: fs = []) := fun hempty => List.cons_ne_nil g fs hempty.2
    rw [if_neg hline, htext, recordText_eq htwo, List.map_cons (a := cs), fieldText_of_plain h]
    rfl

/-- A table is blank text only if its first field is, and holds something. -/
theorem isBlank_of_isBlank_text {f : List Char} {fs : List (List Char)} {rs : List (List (List Char))}
    (h : (text ((f :: fs) :: rs)).all Text.isBlank = true) : f ≠ [] ∧ f.all Text.isBlank = true := by
  have htext : text ((f :: fs) :: rs) = recordText (f :: fs) ++ text rs := rfl
  rw [htext, List.all_append, Bool.and_eq_true] at h
  rcases recordText_cases f fs with ⟨tail, hrecord⟩ | ⟨tail, hrecord⟩ | ⟨hne, -, tail, hrecord⟩
  · rw [hrecord] at h
    exact absurd h.1 Bool.false_ne_true
  · rw [hrecord] at h
    exact absurd h.1 Bool.false_ne_true
  · rw [hrecord, List.all_append, Bool.and_eq_true] at h
    exact ⟨hne, h.1.1⟩

end Csv

end Spreadsheet
