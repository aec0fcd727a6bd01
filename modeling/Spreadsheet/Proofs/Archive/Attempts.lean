import Spreadsheet.Proofs.Archive.Agreement
import Spreadsheet.Proofs.Archive.Loading
import Spreadsheet.Proofs.Files.Trees

/-!
# Spreadsheet.Proofs.Archive.Attempts — saves that fail on the way

A save makes directories, writes a draft and gives it the name of the file, and it can fail at each
of these steps, for whatever reason, with the step done in part: some of the directories may be
there then, or a draft that is cut short.  `Attempt` has all that an attempt to save can leave.  None
of it shows when documents are loaded, unless the attempt succeeds: as long as the path of the
archive's directory climbs from directories only that are there (`WellPlaced`).
-/

namespace Spreadsheet

open FileSystem

/-! ### Stems -/

theorem not_isBlank_of_isStemChar {c : Char} (h : isStemChar c = true) :
    Text.isBlank c = false := by
  rw [← Bool.not_eq_true]
  intro hblank
  have hcode : ∀ n ∈ Text.blankCodes, isStemChar (Char.ofNat n) = false := by decide
  have hchar := hcode _ (Text.mem_blankCodes hblank)
  rw [Char.ofNat_toNat, h] at hchar
  cases hchar

/-- The stem of a stem is the stem. -/
theorem fileStem_fileStem (sheetId : String) : fileStem (fileStem sheetId) = fileStem sheetId := by
  have htrim : Text.trim (fileStem sheetId).toList = (fileStem sheetId).toList :=
    Text.trim_eq_self fun c hc => not_isBlank_of_isStemChar (isStemChar_of_mem hc)
  have hmap : (fileStem sheetId).toList.map
      (fun c => if c.isAlphanum || c == '-' || c == '_' then c else '_') =
      (fileStem sheetId).toList :=
    (List.map_congr_left fun c hc => if_pos (isStemChar_of_mem hc)).trans (List.map_id _)
  have hfilled : ¬ (fileStem sheetId).toList.isEmpty = true := fun hempty =>
    fileStem_ne_nil sheetId (List.isEmpty_iff.1 hempty)
  rw [fileStem.eq_1 (fileStem sheetId), htrim, hmap, if_neg hfilled, String.ofList_toList]

namespace DirectoryArchive

variable {r : DirectoryArchive} {fs made left : FileSystem} {dir : List String} {sheetId : String}
  {s : Document} {result : Except ArchiveError Unit}

/-! ### Attempts -/

/-- What an attempt to save can answer, and the files that it can leave. -/
inductive Attempt (r : DirectoryArchive) (fs : FileSystem) (sheetId : String) (s : Document) :
    Except ArchiveError Unit → FileSystem → Prop where
  /-- The directories on the way to that of the archive can be made in part only. -/
  | noDirectory {first : List String} {left : FileSystem} (e : ArchiveError)
      (hfirst : first <+: Path.names r.root) (hmade : fs.makeAlong [] first = .ok left) :
      Attempt r fs sheetId s (.error e) left
  /-- The draft cannot be made. -/
  | noDraft {made : FileSystem} (e : ArchiveError) (hmade : fs.makeDirectories r.root = .ok made) :
      Attempt r fs sheetId s (.error e) made
  /-- The draft can be written in part only, or cannot take the place of the file. -/
  | noFile {made left : FileSystem} (e : ArchiveError) (written : Content)
      (hmade : fs.makeDirectories r.root = .ok made)
      (hdraft : made.write (r.draftPath sheetId) written = .ok left) :
      Attempt r fs sheetId s (.error e) left
  | saved {made drafted left : FileSystem} (hmade : fs.makeDirectories r.root = .ok made)
      (hdraft : made.write (r.draftPath sheetId) (.text (fileText s)) = .ok drafted)
      (hfile : drafted.rename (r.draftPath sheetId) (r.filePath sheetId) = .ok left) :
      Attempt r fs sheetId s (.ok ()) left

/-- A save is an attempt. -/
theorem attempt_save (r : DirectoryArchive) (fs : FileSystem) (sheetId : String) (s : Document) :
    r.Attempt fs sheetId s (r.save fs sheetId s).1 (r.save fs sheetId s).2 := by
  simp only [save, saveSteps, takeSteps]
  -- where a step fails the steps before it have been done
  cases hmade : fs.makeDirectories r.root with
  | error e => exact .noDirectory _ List.nil_prefix rfl
  | ok made =>
    cases hdraft : made.write (r.draftPath sheetId) (.text (fileText s)) with
    | error e =>
      simp only [hdraft]
      exact .noDraft _ hmade
    | ok drafted =>
      simp only [hdraft]
      cases hfile : drafted.rename (r.draftPath sheetId) (r.filePath sheetId) with
      | error e => exact .noFile _ _ hmade hdraft
      | ok left => exact .saved hmade hdraft hfile

/-! ### What is loaded -/

/-- What is loaded from a node. -/
def loadedFrom : Option Node → Except ArchiveError (Option Document)
  | none => .ok none
  | some .directory => .error (.storage .isDirectory)
  | some (.file (.bytes _)) => .error (.storage .notText)
  | some (.file (.text text)) =>
    match Document.parseJson text with
    | .error e => .error (.unreadable e)
    | .ok s => .ok (some s)

theorem load_eq (r : DirectoryArchive) (fs : FileSystem) (sheetId : String) :
    r.load fs sheetId = loadedFrom (fs.found? (r.filePath sheetId)) := by
  have hfile : Path.namesDirectory (r.filePath sheetId) = false :=
    Path.not_namesDirectory_join (isName_documentName sheetId) r.root
  unfold load pathExists readText FileSystem.read found?
  cases hplace : fs.place (r.filePath sheetId) with
  | error e => rfl
  | ok place =>
    simp only [hfile, bind, Except.bind]
    cases hnode : fs.node? place with
    | none => rfl
    | some n =>
      cases n with
      | directory => rfl
      | file c => cases c <;> rfl

/-- The same is loaded where the same is found. -/
theorem load_congr (h : left.found? (r.filePath sheetId) = fs.found? (r.filePath sheetId)) :
    r.load left sheetId = r.load fs sheetId := by
  rw [load_eq, load_eq, h]

/-- A file is found as before if it is as before. -/
theorem found?_filePath_congr (h : made.LeadsTo r.root dir) (hkeeps : KeepsDirectories made left)
    (hnode : left.node? (dir ++ [documentName sheetId]) = made.node? (dir ++ [documentName sheetId])) :
    left.found? (r.filePath sheetId) = made.found? (r.filePath sheetId) := by
  rw [filePath_eq, (h.mono hkeeps).found?_join (isName_documentName sheetId),
    h.found?_join (isName_documentName sheetId), hnode]

/-- A draft that is written, whatever is in it, is a file beside those of the sheets. -/
theorem nodes_of_write (h : made.LeadsTo r.root dir) {written : Content}
    (hdraft : made.write (r.draftPath sheetId) written = .ok left) :
    made.node? (dir ++ [draftName sheetId]) ≠ some .directory ∧ ∀ place, left.node? place =
      if place = dir ++ [draftName sheetId] then some (.file written) else made.node? place := by
  obtain ⟨-, place, hplace, hnode, rfl⟩ := exists_place_of_write hdraft
  rw [draftPath_eq, h.place_join (isName_draftName sheetId)] at hplace
  split at hplace
  · cases hplace
  obtain rfl := Except.ok.inj hplace
  exact ⟨hnode, node?_put (not_isFixed_concat (isName_draftName sheetId) dir) made _⟩

/-- Files that are put into a directory or removed from it, none of them in place of a directory,
leave a tree. -/
theorem tree_of_files (htree : made.IsTree) (h : made.LeadsTo r.root dir)
    (hnodes : ∀ place, left.node? place = made.node? place ∨
      made.node? place ≠ some .directory ∧ ∃ name, place = dir ++ [name]) :
    KeepsDirectories made left ∧ left.IsTree := by
  have hkeeps : KeepsDirectories made left := fun place hplace =>
    (hnodes place).elim (·.trans hplace) fun hnew => absurd hplace hnew.1
  refine ⟨hkeeps, htree.of_keeps hkeeps fun here name _ => (hnodes _).imp_right ?_⟩
  rintro ⟨-, name', heq⟩
  rw [(List.append_inj' heq rfl).1]
  exact hkeeps dir h.directory

/-- What is loaded after an attempt to save.  If it has failed, everything is loaded as before.  If
it has succeeded, the sheets that share the file are loaded as the document that was saved, all
others as before, and the draft is gone. -/
def LoadsAfter (r : DirectoryArchive) (fs : FileSystem) (sheetId : String) (s : Document)
    (left : FileSystem) : Except ArchiveError Unit → Prop
  | .error _ => ∀ otherId, r.load left otherId = r.load fs otherId
  | .ok () =>
    (s.Storable → ∀ otherId, fileStem otherId = fileStem sheetId →
      r.load left otherId = .ok (some s)) ∧
    (∀ otherId, fileStem otherId ≠ fileStem sheetId → r.load left otherId = r.load fs otherId) ∧
    left.pathExists (r.draftPath sheetId) = false

/-- Everything lies in a directory, and the path of the archive's directory climbs from directories
only that are there. -/
structure WellPlaced (r : DirectoryArchive) (fs : FileSystem) : Prop where
  tree : fs.IsTree
  climbs : fs.ClimbsFromDirectories [] (Path.names r.root)

/-- Without a step up in its path, an archive is well placed where nothing is yet. -/
theorem wellPlaced_empty (h : Path.up ∉ Path.names r.root) : r.WellPlaced .empty :=
  ⟨isTree_empty, climbs_of_not_mem h⟩

/-- The directories that are made for an archive show in nothing that is loaded. -/
theorem WellPlaced.making (h : r.WellPlaced fs) {first : List String}
    (hfirst : first <+: Path.names r.root) (hmade : fs.makeAlong [] first = .ok left) :
    r.WellPlaced left ∧ ∀ sheetId, r.load left sheetId = r.load fs sheetId := by
  obtain ⟨hkeeps, htree⟩ := tree_of_makeAlong h.tree h.climbs hfirst hmade
  exact ⟨⟨htree, h.climbs.mono hkeeps⟩, fun sheetId => load_congr
    (found?_join_made (isName_documentName sheetId) h.tree h.climbs hfirst hmade)⟩

/-- A draft shows in nothing that is loaded. -/
theorem WellPlaced.drafting (h : r.WellPlaced made) (hleads : made.LeadsTo r.root dir)
    {written : Content} (hdraft : made.write (r.draftPath sheetId) written = .ok left) :
    r.WellPlaced left ∧ ∀ otherId, r.load left otherId = r.load made otherId := by
  obtain ⟨hfree, hnodes⟩ := nodes_of_write hleads hdraft
  obtain ⟨hkeeps, htree⟩ := tree_of_files h.tree hleads fun place => by
    rw [hnodes]
    split
    · rename_i heq
      exact .inr ⟨heq ▸ hfree, _, heq⟩
    · exact .inl rfl
  refine ⟨⟨htree, h.climbs.mono hkeeps⟩, fun otherId => load_congr ?_⟩
  refine found?_filePath_congr hleads hkeeps ?_
  rw [hnodes, if_neg (document_ne_draft dir sheetId otherId)]

/-- A save that succeeds shows in the sheets that share the file. -/
theorem WellPlaced.saving (h : r.WellPlaced made) (hleads : made.LeadsTo r.root dir)
    (hsave : r.save made sheetId s = (.ok (), left)) :
    r.WellPlaced left ∧ r.LoadsAfter made sheetId s left (.ok ()) := by
  obtain ⟨hfits, hdraft, hdocument⟩ := places_of_save hleads (congrArg Prod.fst hsave)
  obtain ⟨fs', hsave', hnodes⟩ := save_of_leadsTo hleads hfits hdraft hdocument s
  obtain rfl : fs' = left := congrArg Prod.snd (hsave'.symm.trans hsave)
  -- only the places of the draft and of the file are touched, which stay files
  obtain ⟨hkeeps, htree⟩ := tree_of_files h.tree hleads fun place => by
    rw [hnodes]
    split
    · rename_i heq
      exact .inr ⟨heq ▸ hdocument, _, heq⟩
    split
    · rename_i heq
      exact .inr ⟨heq ▸ hdraft, _, heq⟩
    · exact .inl rfl
  refine ⟨⟨htree, h.climbs.mono hkeeps⟩, fun hs otherId hstem => ?_, fun otherId hstem => ?_, ?_⟩
  · refine load_of_document (place_filePath (hleads.mono hkeeps) (hfits.of_fileStem_eq hstem.symm))
      ?_ hs
    rw [hnodes, if_pos (by rw [documentName_eq_iff.2 hstem])]
  · refine load_congr (found?_filePath_congr hleads hkeeps ?_)
    have hother : dir ++ [documentName otherId] ≠ dir ++ [documentName sheetId] := fun heq =>
      hstem (documentName_eq_iff.1 (List.singleton_inj.1 (List.append_cancel_left heq)))
    rw [hnodes, if_neg hother, if_neg (document_ne_draft dir sheetId otherId)]
  · have hgone : fs'.node? (dir ++ [draftName sheetId]) = none := by
      rw [hnodes, if_neg (document_ne_draft dir sheetId sheetId).symm, if_pos rfl]
    simp only [pathExists, place_draftPath (hleads.mono hkeeps) hfits, hgone]

/-- An attempt leaves files as they have to be, and only its success shows in what is loaded. -/
theorem WellPlaced.attempt (h : r.WellPlaced fs) (hattempt : r.Attempt fs sheetId s result left) :
    r.WellPlaced left ∧ r.LoadsAfter fs sheetId s left result := by
  -- making the directories shows nowhere, so it is enough to look at what comes after
  have hall {made : FileSystem} (hmade : fs.makeDirectories r.root = .ok made) :
      r.WellPlaced made ∧ ∀ sheetId, r.load made sheetId = r.load fs sheetId :=
    h.making (List.prefix_refl _) (makeAlong_of_makeDirectories hmade)
  cases hattempt with
  | noDirectory e hfirst hmade => exact h.making hfirst hmade
  | noDraft e hmade => exact hall hmade
  | noFile e written hmade hdraft =>
    obtain ⟨hplaced, hloads⟩ := hall hmade
    obtain ⟨-, dir, hleads⟩ := makeDirectories_spec hmade
    obtain ⟨hleft, hloads'⟩ := hplaced.drafting hleads hdraft
    exact ⟨hleft, fun otherId => (hloads' otherId).trans (hloads otherId)⟩
  | @saved made drafted _ hmade hdraft hfile =>
    obtain ⟨hplaced, hloads⟩ := hall hmade
    obtain ⟨-, dir, hleads⟩ := makeDirectories_spec hmade
    have hsave : r.save made sheetId s = (.ok (), left) := by
      simp only [save, saveSteps, takeSteps, hleads.makeDirectories, hdraft, hfile]
    obtain ⟨hleft, hsame, hothers, hgone⟩ := hplaced.saving hleads hsave
    exact ⟨hleft, hsame, fun otherId hstem => (hothers otherId hstem).trans (hloads otherId), hgone⟩

/-- Whatever fails on the way, a save shows only if it succeeds.  The files of a sheet lie right in
the directory, under names of letters, digits, `-` and `_` with an ending, and no draft is the file
of a sheet. -/
theorem save_isAtomic (r : DirectoryArchive) :
    (∀ fs sheetId s, r.Attempt fs sheetId s (r.save fs sheetId s).1 (r.save fs sheetId s).2) ∧
    (∀ fs sheetId s result left, r.WellPlaced fs → r.Attempt fs sheetId s result left →
      r.WellPlaced left ∧ r.LoadsAfter fs sheetId s left result) ∧
    ∀ sheetId otherId,
      Path.steps (r.filePath sheetId) = Path.steps r.root ++ [fileStem sheetId ++ ".json"] ∧
      Path.steps (r.draftPath sheetId) = Path.steps r.root ++ [fileStem sheetId ++ ".json.tmp"] ∧
      fileStem sheetId ≠ "" ∧ (∀ c ∈ (fileStem sheetId).toList, isStemChar c = true) ∧
      Path.steps (r.draftPath sheetId) ≠ Path.steps (r.filePath otherId) ∧
      fileStem (fileStem sheetId) = fileStem sheetId := by
  refine ⟨r.attempt_save, fun fs sheetId s result left hplaced => hplaced.attempt,
    fun sheetId otherId => ?_⟩
  -- file and draft are names right below the root
  have hfile (id : String) : Path.steps (r.filePath id) = Path.steps r.root ++ [documentName id] :=
    Path.steps_join (isName_documentName id) r.root
  have hdraft : Path.steps (r.draftPath sheetId) = Path.steps r.root ++ [draftName sheetId] :=
    Path.steps_join (isName_draftName sheetId) r.root
  refine ⟨hfile sheetId, hdraft, ?_, fun c hc => isStemChar_of_mem hc, ?_, fileStem_fileStem sheetId⟩
  · exact fun hempty => fileStem_ne_nil sheetId (String.toList_eq_nil_iff.2 hempty)
  · rw [hdraft, hfile]
    exact (document_ne_draft _ sheetId otherId).symm

/-- A document is saved, and then the draft of another one is cut short: the first is loaded all the
same, under every id with its stem, and nothing is loaded for the second. -/
theorem save_isAtomic_tornDraft :
    let files := (grids.save .empty "a b" (oneCell "first")).2
    let torn := files.put ["grids", "c.json.tmp"] (.file (.text "\x7b"))
    grids.WellPlaced .empty ∧ grids.Attempt .empty "a b" (oneCell "first") (.ok ()) files ∧
      grids.load files "a_b" = .ok (some (oneCell "first")) ∧
      grids.Attempt files "c" (oneCell "second") (.error (.rejected "no space left")) torn ∧
      grids.load torn "a_b" = grids.load files "a_b" ∧
      grids.load torn "c" = grids.load .empty "c" := by
  intro files torn
  obtain ⟨hsaves, hloads, -⟩ := save_isAtomic grids
  have hplaced : grids.WellPlaced .empty := wellPlaced_empty (by decide)
  have hok : (grids.save .empty "a b" (oneCell "first")).1 = .ok () := by decide +kernel
  have hsaved : grids.Attempt .empty "a b" (oneCell "first") (.ok ()) files :=
    hok ▸ hsaves .empty "a b" (oneCell "first")
  obtain ⟨hfiles, hsame, hothers, -⟩ := hloads _ _ _ _ _ hplaced hsaved
  have htorn : grids.Attempt files "c" (oneCell "second") (.error (.rejected "no space left")) torn :=
    .noFile _ (.text "\x7b") (show files.makeDirectories grids.root = .ok files by decide +kernel)
      (by decide +kernel)
  obtain ⟨-, hkept⟩ := hloads _ _ _ _ _ hfiles htorn
  exact ⟨hplaced, hsaved, hsame (storable_oneCell "first") "a_b" (by decide +kernel), htorn,
    hkept "a_b", (hkept "c").trans (hothers "c" (by decide +kernel))⟩

/-- A path climbs from a directory that is not there, to one with the file of a sheet that is therefore
not found.  A save of another sheet makes the missing directory, too, and then the file is found. -/
theorem load_changes_behind_missing_directory :
    let r : DirectoryArchive := ⟨"a/../grids"⟩
    let files := (grids.save .empty "b" (oneCell "first")).2
    let after := r.save files "c" (oneCell "second")
    files.IsTree ∧ (oneCell "second").Storable ∧ after.1 = .ok () ∧ fileStem "b" ≠ fileStem "c" ∧
      r.load files "b" = .ok none ∧ r.load after.2 "b" ≠ .ok none := by
  intro r files after
  have hplaced : grids.WellPlaced files :=
    ((wellPlaced_empty (by decide)).attempt (grids.attempt_save .empty "b" (oneCell "first"))).1
  exact ⟨hplaced.tree, storable_oneCell "second", by decide +kernel, by decide +kernel,
    by decide +kernel, by decide +kernel⟩

end DirectoryArchive

end Spreadsheet
