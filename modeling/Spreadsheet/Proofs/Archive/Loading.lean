import Spreadsheet.Proofs.Address.Spelling
import Spreadsheet.Proofs.Archive.Files
import Spreadsheet.Proofs.Json.Reading

/-!
# Spreadsheet.Proofs.Archive.Loading — what archives give back

A document that an archive has accepted is the one that it loads next, in memory and in a directory
alike (`ReturnsSaves`), wherever the directory lies.  Whatever stands in a document's file, a
document that is loaded from it can be stored: its cells have ids, because its keys are ids, and its
size is a pair of words.
-/

namespace Spreadsheet

theorem Position.hasId_of_parse {s : String} {p : Position} (h : parse s = .ok p) : p.HasId := by
  obtain ⟨letters, digits, -, hspells⟩ := ofIdText?_eq_some_iff.1 (parse_eq_ok_iff.1 h)
  exact ⟨hspells.row_lt, hspells.col_lt⟩

namespace Grid

theorem hasId_of_cellsOfMembers {ms : List (Except JsonFault (List Char) × JsonTree)}
    {cells : List (Position × String)} (h : cellsOfMembers ms = .ok cells) :
    ∀ e ∈ cells, e.1.HasId := by
  induction ms generalizing cells with
  | nil =>
    obtain rfl := Except.ok.inj h
    exact fun _ he => (List.not_mem_nil he).elim
  | cons m ms ih =>
    obtain ⟨key, value⟩ := m
    rw [cellsOfMembers] at h
    obtain ⟨id, -, h⟩ := exists_ok_of_bind_ok h
    split at h
    · cases h
    · rename_i p hp
      obtain ⟨text, -, h⟩ := exists_ok_of_bind_ok h
      obtain ⟨rest, hrest, h⟩ := exists_ok_of_bind_ok h
      obtain rfl := Except.ok.inj h
      exact List.forall_mem_cons.2 ⟨Position.hasId_of_parse hp, ih hrest⟩

/-- The cells of a grid that is read have ids: their keys. -/
theorem hasId_of_ofJson {t : JsonTree} {g : Grid} (h : ofJson t = .ok g) :
    ∀ e ∈ g.entries, e.1.HasId := by
  unfold ofJson at h
  split at h
  · obtain ⟨cells, hcells, h⟩ := exists_ok_of_bind_ok h
    split at h
    · cases h
    · obtain rfl := Except.ok.inj h
      exact fun e he => hasId_of_cellsOfMembers hcells e (mem_of_mem_ofLastTexts he)
  · cases h
  · cases h

end Grid

namespace Document

/-- Every field keeps the document such that it can be stored. -/
theorem storable_put {f : JsonTree.Field Document} (hf : f ∈ fields) {t : JsonTree} {s next : Document}
    (h : f.put t s = .ok next) (hs : s.Storable) : next.Storable := by
  simp only [fields, List.mem_cons, List.not_mem_nil, or_false] at hf
  rcases hf with rfl | rfl | rfl | rfl
  · obtain ⟨g, hgrid, rfl⟩ := exists_ok_of_map_ok h
    exact ⟨Grid.hasId_of_ofJson hgrid, hs.rows, hs.cols⟩
  · obtain ⟨rows, hrows, rfl⟩ := exists_ok_of_map_ok h
    exact ⟨hs.ids, JsonTree.asNatural_lt hrows, hs.cols⟩
  · obtain ⟨cols, hcols, rfl⟩ := exists_ok_of_map_ok h
    exact ⟨hs.ids, hs.rows, JsonTree.asNatural_lt hcols⟩
  · obtain ⟨kind, -, rfl⟩ := exists_ok_of_map_ok h
    exact ⟨hs.ids, hs.rows, hs.cols⟩

/-- A document that is read, from whatever text, can be stored. -/
theorem storable_of_parseJson {text : String} {s : Document} (h : parseJson text = .ok s) :
    s.Storable := by
  obtain ⟨t, ht⟩ := JsonTree.exists_decode_of_parse h
  have hstart : (⟨Grid.empty, 0, 0, standardKind⟩ : Document).Storable :=
    ⟨fun _ he => (List.not_mem_nil he).elim, by decide, by decide⟩
  exact JsonTree.readRecord_preserves (fun f hf t s next => storable_put hf) ht hstart

end Document

/-! ### Archives -/

/-- A document that the archive accepts, in this state of it and of the files, is the one that it
loads afterwards. -/
def ReturnsSaves {γ : Type} [Archive γ] (archive : γ) (files : FileSystem) : Prop :=
  ∀ (sheetId : String) (s : Document), s.Storable → (Archive.save archive files sheetId s).1 = .ok () →
    Archive.load (Archive.save archive files sheetId s).2.1 (Archive.save archive files sheetId s).2.2
      sheetId = .ok (some s)

/-- An archive in memory gives back what it accepts, unless it refuses to load. -/
theorem MemoryArchive.returnsSaves {archive : MemoryArchive} (h : archive.loadsRefused = none)
    (files : FileSystem) : ReturnsSaves archive files := by
  intro sheetId s _ hok
  have hsave : Archive.save archive files sheetId s
      = ((archive.save sheetId s).1, (archive.save sheetId s).2, files) := rfl
  have hload (r : MemoryArchive) : Archive.load r files sheetId = r.load sheetId := rfl
  rw [hsave] at hok ⊢
  rw [hload]
  unfold MemoryArchive.save at hok ⊢
  cases hr : archive.savesRefused with
  | some reason =>
    rw [hr] at hok
    cases hok
  | none => simp only [load, h, get?, List.lookup_cons_self]

namespace DirectoryArchive

open FileSystem

variable {r : DirectoryArchive} {fs : FileSystem} {dir : List String} {sheetId : String} {s : Document}

/-- A save into a directory that is there succeeds only if its draft fits and no directory is in the
place of the draft or of the file. -/
theorem places_of_save (h : fs.LeadsTo r.root dir) (hok : (r.save fs sheetId s).1 = .ok ()) :
    r.Fits sheetId ∧ fs.node? (dir ++ [draftName sheetId]) ≠ some .directory ∧
      fs.node? (dir ++ [documentName sheetId]) ≠ some .directory := by
  have hfits : r.Fits sheetId := by
    by_contra hlong
    rw [save_of_not_fits h hlong] at hok
    cases hok
  have hfile : Path.namesDirectory (r.draftPath sheetId) = false :=
    Path.not_namesDirectory_join (isName_draftName sheetId) r.root
  have hdraft : fs.node? (dir ++ [draftName sheetId]) ≠ some .directory := by
    intro hnode
    simp only [save, saveSteps, takeSteps, h.makeDirectories, write, hfile, place_draftPath h hfits,
      bind, Except.bind, if_pos hnode] at hok
    cases hok
  refine ⟨hfits, hdraft, fun hnode => ?_⟩
  -- the draft, a file, cannot take the place of a directory
  obtain ⟨drafted, hwrite, hleads, hnodes⟩ := write_draft h hfits hdraft s
  simp only [save, saveSteps, takeSteps, h.makeDirectories, hwrite, rename,
    place_draftPath hleads hfits, place_filePath hleads hfits, hnodes, if_pos,
    if_neg (document_ne_draft dir sheetId sheetId), hnode, documentNode, bind, Except.bind] at hok
  cases hok

/-- A save that succeeds has made the directory, and no directory was in the place of the draft or
of the file. -/
theorem exists_leadsTo_of_save (h : (r.save fs sheetId s).1 = .ok ()) :
    ∃ made dir, r.save fs sheetId s = r.save made sheetId s ∧ made.LeadsTo r.root dir ∧
      r.Fits sheetId ∧ made.node? (dir ++ [draftName sheetId]) ≠ some .directory ∧
      made.node? (dir ++ [documentName sheetId]) ≠ some .directory := by
  cases hmake : fs.makeDirectories r.root with
  | error e =>
    simp only [save, saveSteps, takeSteps, hmake] at h
    cases h
  | ok made =>
    obtain ⟨-, dir, hleads⟩ := makeDirectories_spec hmake
    have hsame := save_of_makeDirectories hmake hleads sheetId s
    exact ⟨made, dir, hsame, hleads, places_of_save hleads (hsame ▸ h)⟩

/-- An archive in a directory gives back what it accepts, whatever the files are. -/
theorem returnsSaves (r : DirectoryArchive) (fs : FileSystem) : ReturnsSaves r fs := by
  intro sheetId s hs hok
  have hsave : Archive.save r fs sheetId s = ((r.save fs sheetId s).1, r, (r.save fs sheetId s).2) :=
    rfl
  rw [hsave] at hok ⊢
  show r.load (r.save fs sheetId s).2 sheetId = .ok (some s)
  obtain ⟨made, dir, hsame, hleads, hfits, hdraft, hdocument⟩ := exists_leadsTo_of_save hok
  obtain ⟨fs', hsaved, hnodes⟩ := save_of_leadsTo hleads hfits hdraft hdocument s
  rw [hsame, hsaved]
  have hkeeps : KeepsDirectories made fs' := by
    intro place hplace
    have hne : place ≠ dir ++ [documentName sheetId] := fun heq => hdocument (heq ▸ hplace)
    have hne' : place ≠ dir ++ [draftName sheetId] := fun heq => hdraft (heq ▸ hplace)
    rw [hnodes, if_neg hne, if_neg hne', hplace]
  refine load_of_document (place_filePath (hleads.mono hkeeps) hfits) ?_ hs
  rw [hnodes, if_pos rfl]

/-- A document that is loaded from a directory can be stored. -/
theorem storable_of_load (h : r.load fs sheetId = .ok (some s)) : s.Storable := by
  unfold load at h
  split at h
  · split at h
    · cases h
    · split at h
      · cases h
      · rename_i hread
        obtain rfl := Option.some.inj (Except.ok.inj h)
        exact Document.storable_of_parseJson hread
  · cases h

end DirectoryArchive

end Spreadsheet
