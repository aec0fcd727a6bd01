import Spreadsheet.Proofs.Address.Name
import Spreadsheet.Proofs.Grid.Entries
import Spreadsheet.Proofs.Grid.Within
import Spreadsheet.Proofs.Json.Written

/-!
# Spreadsheet.Proofs.Document.ReadBack — documents are read back

The members of a written grid are its entries in their order, every key being the id of one
position; so none of them is lost or replaced by another.  A document is put together again from its
four members.
-/

namespace Spreadsheet

namespace Grid

open JsonTree

theorem cellOfJson_ofValue (text : String) : cellOfJson (ofValue (cellJson text)) = .ok text := by
  rw [cellOfJson, cellJson, ofValue, readRecord,
    readMembersInto_field rfl List.not_mem_nil (asText_ofValue text)]
  rfl

/-- Members with the texts of cells stand for these cells, whichever of its ids names a cell. -/
theorem cellsOfMembers_ofMembers {ι : Type} {name : ι → String} {cell : ι → Position}
    {text : ι → String} {es : List ι} (h : ∀ e ∈ es, Position.parse (name e) = .ok (cell e)) :
    cellsOfMembers (ofMembers (es.map fun e => (name e, cellJson (text e)))) =
      .ok (es.map fun e => (cell e, text e)) := by
  induction es with
  | nil => rfl
  | cons e es ih =>
    obtain ⟨he, hes⟩ := List.forall_mem_cons.1 h
    rw [List.map_cons, ofMembers, cellsOfMembers]
    simp only [keyText, String.ofList_toList, bind, Except.bind, he, cellOfJson_ofValue, ih hes]
    rfl

theorem ofJson_toJson {g : Grid} (h : ∀ e ∈ g.entries, e.1.HasId) :
    ofJson (ofValue g.toJson) = .ok g := by
  have hcells : cellsOfMembers (ofMembers (g.entries.map fun e => (e.1.id, cellJson e.2))) =
      .ok (g.entries.map fun e => (e.1, e.2)) :=
    cellsOfMembers_ofMembers fun e he => Position.parse_id (h e he).1 (h e he).2
  rw [toJson, ofValue, ofJson]
  simp only [bind, Except.bind, hcells, List.map_id', ofLastTexts_entries]

end Grid

namespace Document

open JsonTree

theorem readRecord_toJson {s : Document} (hids : ∀ e ∈ s.grid.entries, e.1.HasId)
    (hrows : s.rows < Word.size) (hcols : s.cols < Word.size) :
    readRecord fields ⟨Grid.empty, 0, 0, standardKind⟩ (ofValue s.toJson) = .ok s := by
  have hgrid : fields[0].put (ofValue s.grid.toJson) ⟨Grid.empty, 0, 0, standardKind⟩ =
      .ok ⟨s.grid, 0, 0, standardKind⟩ := congrArg (Except.map _) (Grid.ofJson_toJson hids)
  have hrow : fields[1].put (ofValue (.natural s.rows)) ⟨s.grid, 0, 0, standardKind⟩ =
      .ok ⟨s.grid, s.rows, 0, standardKind⟩ := congrArg (Except.map _) (asNatural_ofValue hrows)
  have hcol : fields[2].put (ofValue (.natural s.cols)) ⟨s.grid, s.rows, 0, standardKind⟩ =
      .ok ⟨s.grid, s.rows, s.cols, standardKind⟩ := congrArg (Except.map _) (asNatural_ofValue hcols)
  have hkind : fields[3].put (ofValue (.text s.kind)) ⟨s.grid, s.rows, s.cols, standardKind⟩ =
      .ok s := congrArg (Except.map _) (asText_ofValue s.kind)
  rw [toJson, ofValue, readRecord, readMembersInto_field rfl (by decide) hgrid,
    readMembersInto_field rfl (by decide) hrow, readMembersInto_field rfl (by decide) hcol,
    readMembersInto_field rfl (by decide) hkind]
  rfl

/-- A written grid is read back if all its cells have ids, and so is a document with it whose size
is a pair of words. -/
theorem parseJson_toJson {g : Grid} (hids : ∀ e ∈ g.entries, e.1.HasId) :
    Grid.parseJson g.toJson.compact = .ok g ∧
      ∀ (rows cols : Nat) (kind : String), rows < Word.size → cols < Word.size →
        parseJson (Document.mk g rows cols kind).toJson.pretty = .ok ⟨g, rows, cols, kind⟩ := by
  constructor
  · have hcompact : g.toJson.Written g.toJson.compact.toList := by
      rw [JsonValue.compact, String.toList_ofList]
      exact JsonValue.written_compactText _
    rw [Grid.parseJson, parse_of_written _ hcompact, Grid.ofJson_toJson hids]
  · intro rows cols kind hrows hcols
    have hpretty (v : JsonValue) : v.Written v.pretty.toList := by
      rw [JsonValue.pretty, String.toList_ofList]
      exact JsonValue.written_prettyText 0 v
    rw [parseJson, parse_of_written _ (hpretty _)]
    exact readRecord_toJson (s := ⟨g, rows, cols, kind⟩) hids hrows hcols

/-- A line break, a quote, a backslash and a control character, in the two corners that have ids. -/
def escapedCorners : Grid where
  entries := [(⟨0, 0⟩, "\"a\\\n"), (⟨Word.size - 2, Word.size - 2⟩, "\x01")]
  ordered := by decide
  filled := by decide

theorem parseJson_toJson_escapedCorners :
    (∀ e ∈ escapedCorners.entries, e.1.HasId) ∧ Word.size - 1 < Word.size ∧
      Grid.parseJson escapedCorners.toJson.compact = .ok escapedCorners ∧
      parseJson (Document.mk escapedCorners (Word.size - 1) 0 "{}").toJson.pretty =
        .ok ⟨escapedCorners, Word.size - 1, 0, "{}"⟩ := by
  have hids : ∀ e ∈ escapedCorners.entries, e.1.HasId := by
    intro e he
    rcases List.mem_pair.1 he with rfl | rfl
    · exact ⟨by decide, by decide⟩
    · exact ⟨by decide, by decide⟩
  obtain ⟨hgrid, hdocument⟩ := parseJson_toJson hids
  exact ⟨hids, by decide, hgrid, hdocument _ 0 _ (by decide) (by decide)⟩

end Document

end Spreadsheet
