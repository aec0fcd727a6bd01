import Spreadsheet.Archive
import Spreadsheet.Proofs.Document.ReadBack
import Spreadsheet.Proofs.Files.Places

/-!
# Spreadsheet.Proofs.Archive.Files — the files of a directory of documents

The file of a sheet and its draft are names right below the directory, made of the stem of the
sheet's id.  A save puts one file in its place and leaves no draft; a load reads what is in the
place.
-/

namespace Spreadsheet

open FileSystem

/-! ### Names of files -/

/-- The name of a sheet's file. -/
def documentName (sheetId : String) : String := fileStem sheetId ++ ".json"

/-- The name under which a sheet's file is written first. -/
def draftName (sheetId : String) : String := fileStem sheetId ++ ".json.tmp"

/-- The characters of stems. -/
def isStemChar (c : Char) : Bool := c.isAlphanum || c == '-' || c == '_'

theorem fileStem_ne_nil (sheetId : String) : (fileStem sheetId).toList ≠ [] := by
  rw [fileStem]
  split
  · decide
  · rename_i hstem
    rw [String.toList_ofList]
    exact fun hnil => hstem (List.isEmpty_iff.2 hnil)

theorem isStemChar_of_mem {sheetId : String} {c : Char} (h : c ∈ (fileStem sheetId).toList) :
    isStemChar c = true := by
  rw [fileStem] at h
  split at h
  · exact List.all_eq_true.1 (show "default".toList.all isStemChar = true by decide) c h
  · rw [String.toList_ofList] at h
    obtain ⟨d, -, rfl⟩ := List.mem_map.1 h
    by_cases hd : (d.isAlphanum || d == '-' || d == '_') = true
    · rw [if_pos hd]
      exact hd
    · rw [if_neg hd]
      decide

/-- A stem with an ending is a name. -/
theorem isName_fileStem_append (sheetId : String) {ending : String}
    (hslash : '/' ∉ ending.toList) (hnul : '\x00' ∉ ending.toList) :
    Path.IsName (fileStem sheetId ++ ending) := by
  have hfilled := fileStem_ne_nil sheetId
  -- the first character is one of the stem, so the name is not one of the dotted steps
  have hdotted (step : String) (hstep : step.toList.head? = some '.') :
      fileStem sheetId ++ ending ≠ step := by
    intro heq
    obtain ⟨c, cs, hcs⟩ := List.exists_cons_of_ne_nil hfilled
    rw [← heq, String.toList_append, hcs, List.cons_append, List.head?_cons,
      Option.some.injEq] at hstep
    have hchar := isStemChar_of_mem (hcs ▸ List.mem_cons_self : c ∈ (fileStem sheetId).toList)
    rw [hstep] at hchar
    exact absurd hchar (by decide)
  have hnot (c : Char) (hc : isStemChar c = false) (hending : c ∉ ending.toList) :
      c ∉ (fileStem sheetId ++ ending).toList := by
    rw [String.toList_append, List.mem_append, not_or]
    refine ⟨fun hmem => ?_, hending⟩
    rw [isStemChar_of_mem hmem] at hc
    cases hc
  exact
    { filled := by
        rw [String.toList_append]
        exact fun hnil => hfilled (List.append_eq_nil_iff.1 hnil).1
      noSlash := hnot '/' (by decide) hslash
      noNul := hnot '\x00' (by decide) hnul
      ne_stay := hdotted _ (by decide)
      ne_up := hdotted _ (by decide) }

theorem isName_documentName (sheetId : String) : Path.IsName (documentName sheetId) :=
  isName_fileStem_append sheetId (by decide) (by decide)

theorem isName_draftName (sheetId : String) : Path.IsName (draftName sheetId) :=
  isName_fileStem_append sheetId (by decide) (by decide)

/-- Sheets share a file exactly if their ids have the same stem. -/
theorem documentName_eq_iff {sheetId otherId : String} :
    documentName sheetId = documentName otherId ↔ fileStem sheetId = fileStem otherId := by
  rw [documentName, documentName, ← String.toList_inj, ← String.toList_inj, String.toList_append,
    String.toList_append, List.append_left_inj]

/-- No draft is the file of a sheet. -/
theorem draftName_ne_documentName (sheetId otherId : String) :
    draftName sheetId ≠ documentName otherId := by
  intro heq
  have hlast := congrArg (fun name => name.toList.getLast?) heq
  simp only [draftName, documentName, String.toList_append, List.getLast?_append] at hlast
  exact absurd hlast (by simp)

/-! ### Documents in files -/

/-- The document can be stored: all its cells have ids and its size is a pair of words. -/
structure Document.Storable (s : Document) : Prop where
  ids : ∀ e ∈ s.grid.entries, e.1.HasId
  rows : s.rows < Word.size
  cols : s.cols < Word.size

theorem Document.parseJson_fileText {s : Document} (h : s.Storable) :
    parseJson (DirectoryArchive.fileText s) = .ok s := by
  have hwritten : s.toJson.Written (DirectoryArchive.fileText s).toList := by
    rw [DirectoryArchive.fileText, JsonValue.pretty, String.toList_ofList]
    exact JsonValue.written_prettyText 0 _
  rw [parseJson, JsonTree.parse_of_written _ hwritten]
  exact readRecord_toJson h.ids h.rows h.cols

namespace DirectoryArchive

variable {r : DirectoryArchive} {fs : FileSystem} {dir : List String}

/-- The node that holds a document. -/
def documentNode (s : Document) : Node := .file (.text (fileText s))

/-- The path and the name of a sheet's draft are short enough, so those of its file are, too. -/
structure Fits (r : DirectoryArchive) (sheetId : String) : Prop where
  path : (r.draftPath sheetId).utf8ByteSize ≤ pathLimit
  name : (draftName sheetId).utf8ByteSize ≤ nameLimit

instance (r : DirectoryArchive) (sheetId : String) : Decidable (r.Fits sheetId) :=
  decidable_of_iff ((r.draftPath sheetId).utf8ByteSize ≤ pathLimit ∧
    (draftName sheetId).utf8ByteSize ≤ nameLimit) ⟨fun h => ⟨h.1, h.2⟩, fun h => ⟨h.1, h.2⟩⟩

theorem filePath_eq (r : DirectoryArchive) (sheetId : String) :
    r.filePath sheetId = Path.join r.root (documentName sheetId) := rfl

theorem draftPath_eq (r : DirectoryArchive) (sheetId : String) :
    r.draftPath sheetId = Path.join r.root (draftName sheetId) := rfl

theorem place_draftPath (h : fs.LeadsTo r.root dir) {sheetId : String} (hfits : r.Fits sheetId) :
    fs.place (r.draftPath sheetId) = .ok (dir ++ [draftName sheetId]) := by
  rw [draftPath_eq, h.place_join (isName_draftName sheetId), if_neg]
  rw [← draftPath_eq, not_or, not_lt, not_lt]
  exact ⟨hfits.path, hfits.name⟩

theorem place_filePath (h : fs.LeadsTo r.root dir) {sheetId : String} (hfits : r.Fits sheetId) :
    fs.place (r.filePath sheetId) = .ok (dir ++ [documentName sheetId]) := by
  have hname : (documentName sheetId).utf8ByteSize + 4 = (draftName sheetId).utf8ByteSize := by
    rw [documentName, draftName, String.utf8ByteSize_append, String.utf8ByteSize_append]
    rfl
  have hpath : (r.filePath sheetId).utf8ByteSize + 4 = (r.draftPath sheetId).utf8ByteSize := by
    rw [filePath_eq, draftPath_eq, Path.join_eq (isName_documentName sheetId),
      Path.join_eq (isName_draftName sheetId), String.utf8ByteSize_append,
      String.utf8ByteSize_append, Nat.add_assoc, hname]
  have hfitsPath := hfits.path
  have hfitsName := hfits.name
  rw [filePath_eq, h.place_join (isName_documentName sheetId), if_neg]
  rw [← filePath_eq]
  omega

/-! ### Loading -/

/-- Nothing is loaded where nothing is. -/
theorem load_of_none {sheetId : String}
    (h : ∀ place, fs.place (r.filePath sheetId) = .ok place → fs.node? place = none) :
    r.load fs sheetId = .ok none := by
  have hexists : fs.pathExists (r.filePath sheetId) = false := by
    rw [pathExists]
    cases hplace : fs.place (r.filePath sheetId) with
    | error e => rfl
    | ok place => simp only [h place hplace]
  rw [load, hexists]
  rfl

theorem load_of_document {sheetId : String} {s : Document} {place : List String}
    (hplace : fs.place (r.filePath sheetId) = .ok place)
    (hnode : fs.node? place = some (documentNode s)) (hs : s.Storable) :
    r.load fs sheetId = .ok (some s) := by
  have hfile : Path.namesDirectory (r.filePath sheetId) = false :=
    Path.not_namesDirectory_join (isName_documentName sheetId) r.root
  have hexists : fs.pathExists (r.filePath sheetId) = true := by
    simp only [pathExists, hplace, hnode, documentNode, hfile, Bool.not_false]
  have hread : fs.readText (r.filePath sheetId) = .ok (fileText s) := by
    simp only [readText, FileSystem.read, hplace, hnode, documentNode, hfile, bind, Except.bind]
    rfl
  rw [load, if_pos hexists, hread]
  simp only [Document.parseJson_fileText hs]

/-! ### Saving -/

/-- A save begins by making the directory. -/
theorem save_of_makeDirectories {made : FileSystem} (h : fs.makeDirectories r.root = .ok made)
    (hmade : made.LeadsTo r.root dir) (sheetId : String) (s : Document) :
    r.save fs sheetId s = r.save made sheetId s := by
  simp only [save, saveSteps, takeSteps, h, hmade.makeDirectories]

/-- A save whose draft does not fit fails, because its name is too long. -/
theorem save_of_not_fits (h : fs.LeadsTo r.root dir) {sheetId : String}
    (hfits : ¬ r.Fits sheetId) (s : Document) :
    (r.save fs sheetId s).1 = .error (.storage .nameTooLong) := by
  have hplace : fs.place (r.draftPath sheetId) = .error .nameTooLong := by
    rw [draftPath_eq, h.place_join (isName_draftName sheetId), if_pos]
    by_contra hshort
    rw [← draftPath_eq, not_or, not_lt, not_lt] at hshort
    exact hfits ⟨hshort.1, hshort.2⟩
  have hfile : Path.namesDirectory (r.draftPath sheetId) = false :=
    Path.not_namesDirectory_join (isName_draftName sheetId) r.root
  simp only [save, saveSteps, takeSteps, h.makeDirectories, write, hfile, hplace, bind, Except.bind]
  rfl

/-- The draft is written first.  Then the same path leads to the directory, and everything else is
as it was. -/
theorem write_draft (h : fs.LeadsTo r.root dir) {sheetId : String} (hfits : r.Fits sheetId)
    (hdraft : fs.node? (dir ++ [draftName sheetId]) ≠ some .directory) (s : Document) :
    ∃ drafted, fs.write (r.draftPath sheetId) (.text (fileText s)) = .ok drafted ∧
      drafted.LeadsTo r.root dir ∧ ∀ place, drafted.node? place =
        if place = dir ++ [draftName sheetId] then some (documentNode s) else fs.node? place := by
  have hfile : Path.namesDirectory (r.draftPath sheetId) = false :=
    Path.not_namesDirectory_join (isName_draftName sheetId) r.root
  exact ⟨_, write_of_place hfile (place_draftPath h hfits) hdraft _,
    h.mono (keepsDirectories_put hdraft _),
    node?_put (not_isFixed_concat (isName_draftName sheetId) dir) fs _⟩

theorem document_ne_draft (dir : List String) (sheetId otherId : String) :
    dir ++ [documentName otherId] ≠ dir ++ [draftName sheetId] := fun heq =>
  draftName_ne_documentName sheetId otherId
    (List.singleton_inj.1 (List.append_cancel_left heq)).symm

/-- A save puts the document in its place and leaves no draft; everything else stays as it was. -/
theorem save_of_leadsTo (h : fs.LeadsTo r.root dir) {sheetId : String} (hfits : r.Fits sheetId)
    (hdraft : fs.node? (dir ++ [draftName sheetId]) ≠ some .directory)
    (hdocument : fs.node? (dir ++ [documentName sheetId]) ≠ some .directory) (s : Document) :
    ∃ fs', r.save fs sheetId s = (.ok (), fs') ∧ ∀ place, fs'.node? place =
      if place = dir ++ [documentName sheetId] then some (documentNode s)
      else if place = dir ++ [draftName sheetId] then none
      else fs.node? place := by
  have hfreeDraft := not_isFixed_concat (isName_draftName sheetId) dir
  have hfreeDocument := not_isFixed_concat (isName_documentName sheetId) dir
  have hne := document_ne_draft dir sheetId sheetId
  obtain ⟨drafted, hwrite, hleads, hdrafted⟩ := write_draft h hfits hdraft s
  let saved := (drafted.removed (dir ++ [draftName sheetId])).put (dir ++ [documentName sheetId])
    (documentNode s)
  -- a file can be replaced by the draft, and there is no directory in its place
  have hrename : drafted.rename (r.draftPath sheetId) (r.filePath sheetId) = .ok saved := by
    simp only [rename, place_draftPath hleads hfits, place_filePath hleads hfits, bind,
      Except.bind, hdrafted, if_pos, if_neg hne]
    cases hnode : fs.node? (dir ++ [documentName sheetId]) with
    | none => rfl
    | some n =>
      cases n with
      | file c => rfl
      | directory => exact absurd hnode hdocument
  have hsave : r.save fs sheetId s = (.ok (), saved) := by
    simp only [save, saveSteps, takeSteps, h.makeDirectories, hwrite, hrename]
  refine ⟨saved, hsave, fun place => ?_⟩
  rw [node?_put hfreeDocument, node?_removed hfreeDraft, hdrafted]
  split
  · rfl
  split <;> rfl

end DirectoryArchive

end Spreadsheet
