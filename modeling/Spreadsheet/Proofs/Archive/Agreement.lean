import Spreadsheet.Proofs.Archive.Files

/-!
# Spreadsheet.Proofs.Archive.Agreement — the archives compared

Both archives answer a load with the newest document that was saved before, the one in memory under
the same id and the one in a directory under an id with the same stem.  So they agree on the runs
over some ids exactly if no two of these ids share a stem.
-/

namespace Spreadsheet

open FileSystem

/-- A call of an archive. -/
inductive ArchiveCall where
  | save (sheetId : String) (s : Document)
  | load (sheetId : String)
deriving DecidableEq

namespace ArchiveCall

/-- The sheet that is saved or loaded. -/
def sheetId : ArchiveCall → String
  | save sheetId _ => sheetId
  | load sheetId => sheetId

/-- What is saved can be stored. -/
def Storable : ArchiveCall → Prop
  | save _ s => s.Storable
  | load _ => True

end ArchiveCall

/-- What calls answer, one after the other.  A save that succeeds answers nothing. -/
def answers {γ : Type} [Archive γ] : γ → FileSystem → List ArchiveCall →
    List (Except ArchiveError (Option Document))
  | _, _, [] => []
  | a, fs, .save sheetId s :: calls =>
    let r := Archive.save a fs sheetId s
    r.1.map (fun _ => none) :: answers r.2.1 r.2.2 calls
  | a, fs, .load sheetId :: calls => Archive.load a fs sheetId :: answers a fs calls

theorem answers_load {γ : Type} [Archive γ] (a : γ) (fs : FileSystem) (sheetId : String)
    (calls : List ArchiveCall) :
    answers a fs (.load sheetId :: calls) = Archive.load a fs sheetId :: answers a fs calls := rfl

/-- No call fails in the file system. -/
def StorageWorks (results : List (Except ArchiveError (Option Document))) : Prop :=
  ∀ e, .error (.storage e) ∉ results

variable {key key' : String → String} {saved : List (String × Document)}

/-- The newest document that was saved under an id with the same key.  `saved` has the newest one
first. -/
def newest (key : String → String) (saved : List (String × Document)) (sheetId : String) :
    Option Document :=
  (saved.find? fun e => key e.1 = key sheetId).map Prod.snd

/-- What calls answer if every load finds the newest document under its key. -/
def answersBy (key : String → String) : List (String × Document) → List ArchiveCall →
    List (Option Document)
  | _, [] => []
  | saved, .save sheetId s :: calls => none :: answersBy key ((sheetId, s) :: saved) calls
  | saved, .load sheetId :: calls => newest key saved sheetId :: answersBy key saved calls

theorem newest_cons (key : String → String) (savedId : String) (s : Document)
    (saved : List (String × Document)) (sheetId : String) :
    newest key ((savedId, s) :: saved) sheetId =
      if key savedId = key sheetId then some s else newest key saved sheetId := by
  rw [newest, List.find?_cons]
  by_cases hkey : key savedId = key sheetId
  · rw [if_pos hkey, decide_eq_true hkey]
    rfl
  · rw [if_neg hkey, decide_eq_false hkey]
    rfl

theorem mem_of_newest {sheetId : String} {s : Document} (h : newest key saved sheetId = some s) :
    ∃ savedId, (savedId, s) ∈ saved ∧ key savedId = key sheetId := by
  obtain ⟨e, hfind, rfl⟩ := Option.map_eq_some_iff.1 h
  exact ⟨e.1, List.mem_of_find?_eq_some hfind, by simpa using List.find?_some hfind⟩

theorem newest_congr {sheetId : String}
    (h : ∀ e ∈ saved, key e.1 = key sheetId ↔ key' e.1 = key' sheetId) :
    newest key saved sheetId = newest key' saved sheetId := by
  induction saved with
  | nil => rfl
  | cons e saved ih =>
    obtain ⟨he, hsaved⟩ := List.forall_mem_cons.1 h
    rw [newest_cons, newest_cons, ih hsaved]
    exact if_congr he rfl rfl

/-- Keys that tell the same ids apart give the same answers. -/
theorem answersBy_congr {ids savable : String → Prop} {calls : List ArchiveCall}
    (hkeys : ∀ a b, savable a → ids b → (key a = key b ↔ key' a = key' b))
    (hsaved : ∀ e ∈ saved, savable e.1) (hids : ∀ c ∈ calls, ids c.sheetId)
    (hsavable : ∀ sheetId s, .save sheetId s ∈ calls → savable sheetId) :
    answersBy key saved calls = answersBy key' saved calls := by
  induction calls generalizing saved with
  | nil => rfl
  | cons c calls ih =>
    obtain ⟨hid, hrestIds⟩ := List.forall_mem_cons.1 hids
    have hrest : ∀ sheetId s, .save sheetId s ∈ calls → savable sheetId := fun sheetId s hmem =>
      hsavable sheetId s (List.mem_cons_of_mem _ hmem)
    cases c with
    | save sheetId s =>
      have hall : ∀ e ∈ (sheetId, s) :: saved, savable e.1 :=
        List.forall_mem_cons.2 ⟨hsavable sheetId s List.mem_cons_self, hsaved⟩
      rw [answersBy, answersBy, ih hall hrestIds hrest]
    | load sheetId =>
      rw [answersBy, answersBy, newest_congr fun e he => hkeys e.1 sheetId (hsaved e he) hid,
        ih hsaved hrestIds hrest]

namespace MemoryArchive

theorem answers_save (documents : List (String × Document)) (saves : Nat) (fs : FileSystem)
    (sheetId : String) (s : Document) (calls : List ArchiveCall) :
    answers (⟨documents, saves, none, none⟩ : MemoryArchive) fs (.save sheetId s :: calls) =
      .ok none :: answers (⟨(sheetId, s) :: documents.filter fun e => e.1 ≠ sheetId, saves + 1,
        none, none⟩ : MemoryArchive) fs calls := rfl

/-- The archive in memory finds the newest document of every id. -/
theorem answers_eq {documents : List (String × Document)} {saves : Nat}
    (hkept : ∀ sheetId, documents.lookup sheetId = newest id saved sheetId) (fs : FileSystem)
    (calls : List ArchiveCall) :
    answers (⟨documents, saves, none, none⟩ : MemoryArchive) fs calls =
      (answersBy id saved calls).map .ok := by
  induction calls generalizing documents saves saved with
  | nil => rfl
  | cons c calls ih =>
    cases c with
    | save sheetId s =>
      rw [answers_save, answersBy, List.map_cons, ih fun other => ?_]
      rw [List.lookup_cons, lookup_filter_ne, newest_cons, hkept, id, id]
      by_cases hother : other = sheetId
      · rw [beq_iff_eq.2 hother, if_pos hother.symm]
      · rw [beq_eq_false_iff_ne.2 hother, if_neg (Ne.symm hother), if_neg hother]
    | load sheetId =>
      have hload : Archive.load (⟨documents, saves, none, none⟩ : MemoryArchive) fs sheetId =
          .ok (newest id saved sheetId) := congrArg Except.ok (hkept sheetId)
      rw [answers_load, hload, ih hkept, answersBy, List.map_cons]

end MemoryArchive

namespace DirectoryArchive

variable {r : DirectoryArchive} {fs : FileSystem} {sheetId otherId : String} {s : Document}

/-- The directory is there or can be made, and nothing is in it. -/
def IsEmpty (r : DirectoryArchive) (fs : FileSystem) : Prop :=
  ∃ made dir, fs.makeDirectories r.root = .ok made ∧ made.LeadsTo r.root dir ∧
    ∀ name, Path.IsName name → made.node? (dir ++ [name]) = none

/-- The directory holds the newest document of every stem. -/
structure Keeps (r : DirectoryArchive) (fs : FileSystem) (dir : List String)
    (saved : List (String × Document)) : Prop where
  leads : fs.LeadsTo r.root dir
  plain : ∀ name, Path.IsName name → fs.node? (dir ++ [name]) ≠ some .directory
  documents : ∀ sheetId, fs.node? (dir ++ [documentName sheetId]) =
    (newest fileStem saved sheetId).map documentNode
  sound : ∀ e ∈ saved, r.Fits e.1 ∧ e.2.Storable

theorem Fits.of_fileStem_eq (hfits : r.Fits sheetId) (h : fileStem sheetId = fileStem otherId) :
    r.Fits otherId := by
  have hname : draftName sheetId = draftName otherId := by rw [draftName, draftName, h]
  have hpath : r.draftPath sheetId = r.draftPath otherId := by
    rw [draftPath_eq, draftPath_eq, hname]
  obtain ⟨hfitsPath, hfitsName⟩ := hfits
  rw [hpath] at hfitsPath
  rw [hname] at hfitsName
  exact ⟨hfitsPath, hfitsName⟩

theorem Keeps.load {dir : List String} (h : r.Keeps fs dir saved) (sheetId : String) :
    r.load fs sheetId = .ok (newest fileStem saved sheetId) := by
  cases hnewest : newest fileStem saved sheetId with
  | none =>
    refine load_of_none fun place hplace => ?_
    rw [filePath_eq, h.leads.place_join (isName_documentName sheetId)] at hplace
    split at hplace
    · cases hplace
    · rw [Except.ok.injEq] at hplace
      rw [← hplace, h.documents, hnewest]
      rfl
  | some s =>
    obtain ⟨savedId, hmem, hstem⟩ := mem_of_newest hnewest
    obtain ⟨hfits, hstorable⟩ := h.sound _ hmem
    refine load_of_document (place_filePath h.leads (hfits.of_fileStem_eq hstem)) ?_ hstorable
    rw [h.documents, hnewest]
    rfl

theorem Keeps.save {dir : List String} (h : r.Keeps fs dir saved) (hfits : r.Fits sheetId)
    (hs : s.Storable) :
    ∃ fs', r.save fs sheetId s = (.ok (), fs') ∧ r.Keeps fs' dir ((sheetId, s) :: saved) := by
  obtain ⟨fs', hsave, hnodes⟩ := save_of_leadsTo h.leads hfits
    (h.plain _ (isName_draftName sheetId)) (h.plain _ (isName_documentName sheetId)) s
  -- the save touches two places, and there is no directory in either
  have hkeeps : KeepsDirectories fs fs' := by
    intro place hplace
    have hdraft : place ≠ dir ++ [draftName sheetId] := fun heq =>
      h.plain _ (isName_draftName sheetId) (heq ▸ hplace)
    have hdocument : place ≠ dir ++ [documentName sheetId] := fun heq =>
      h.plain _ (isName_documentName sheetId) (heq ▸ hplace)
    rw [hnodes, if_neg hdocument, if_neg hdraft, hplace]
  refine ⟨fs', hsave, ?_⟩
  exact
    { leads := h.leads.mono hkeeps
      plain := by
        intro name hname
        rw [hnodes]
        split
        · exact fun hnode => nomatch Option.some.inj hnode
        split
        · exact fun hnode => nomatch hnode
        · exact h.plain name hname
      documents := by
        intro otherId
        rw [hnodes, if_neg (document_ne_draft dir sheetId otherId), newest_cons, h.documents]
        by_cases hstem : fileStem sheetId = fileStem otherId
        · rw [if_pos hstem, if_pos]
          · rfl
          · rw [documentName_eq_iff.2 hstem]
        · rw [if_neg hstem, if_neg]
          exact fun heq => hstem (documentName_eq_iff.1
            (List.singleton_inj.1 (List.append_cancel_left heq)).symm)
      sound := List.forall_mem_cons.2 ⟨⟨hfits, hs⟩, h.sound⟩ }

/-- Where the directory stands in a run: nothing has been saved yet, or it keeps what has been. -/
def Stands (r : DirectoryArchive) (fs : FileSystem) (saved : List (String × Document)) : Prop :=
  saved = [] ∧ r.IsEmpty fs ∨ ∃ dir, r.Keeps fs dir saved

/-- The directory that has been made keeps nothing so far. -/
theorem IsEmpty.keeps {made : FileSystem} {dir : List String} (hleads : made.LeadsTo r.root dir)
    (hnone : ∀ name, Path.IsName name → made.node? (dir ++ [name]) = none) :
    r.Keeps made dir [] where
  leads := hleads
  plain name hname := by
    rw [hnone name hname]
    exact fun hnode => nomatch hnode
  documents sheetId := hnone _ (isName_documentName sheetId)
  sound _ he := (List.not_mem_nil he).elim

theorem Stands.load (h : r.Stands fs saved) (sheetId : String) :
    r.load fs sheetId = .ok (newest fileStem saved sheetId) := by
  rcases h with ⟨rfl, made, dir, hmake, hleads, hnone⟩ | ⟨dir, hkeeps⟩
  · refine load_of_none fun place hplace => ?_
    -- in the directory that a save would make, the path leads to where nothing is
    have hadds := (makeDirectories_spec hmake).1
    have hmade : made.node? place = none := by
      have hfollow : made.place (r.filePath sheetId) = .ok place :=
        place_of_keeps hadds.keeps hplace
      rw [filePath_eq, hleads.place_join (isName_documentName sheetId)] at hfollow
      split at hfollow
      · cases hfollow
      · rw [Except.ok.injEq] at hfollow
        rw [← hfollow]
        exact hnone _ (isName_documentName sheetId)
    rw [hadds.node?_eq (by rw [hmade]; exact fun hnode => nomatch hnode), hmade]
  · exact hkeeps.load sheetId

theorem Stands.save (h : r.Stands fs saved) (hfits : r.Fits sheetId) (hs : s.Storable) :
    ∃ fs', r.save fs sheetId s = (.ok (), fs') ∧ r.Stands fs' ((sheetId, s) :: saved) := by
  rcases h with ⟨rfl, made, dir, hmake, hleads, hnone⟩ | ⟨dir, hkeeps⟩
  · obtain ⟨fs', hsave, hkeeps⟩ := (IsEmpty.keeps hleads hnone).save hfits hs
    exact ⟨fs', (save_of_makeDirectories hmake hleads sheetId s).trans hsave, .inr ⟨dir, hkeeps⟩⟩
  · obtain ⟨fs', hsave, hkeeps⟩ := hkeeps.save hfits hs
    exact ⟨fs', hsave, .inr ⟨dir, hkeeps⟩⟩

theorem Stands.save_of_not_fits (h : r.Stands fs saved) (hfits : ¬ r.Fits sheetId) (s : Document) :
    (r.save fs sheetId s).1 = .error (.storage .nameTooLong) := by
  rcases h with ⟨rfl, made, dir, hmake, hleads, -⟩ | ⟨dir, hkeeps⟩
  · rw [save_of_makeDirectories hmake hleads]
    exact DirectoryArchive.save_of_not_fits hleads hfits s
  · exact DirectoryArchive.save_of_not_fits hkeeps.leads hfits s

/-- Every save of some calls fits. -/
def SavesFit (r : DirectoryArchive) (calls : List ArchiveCall) : Prop :=
  ∀ sheetId s, .save sheetId s ∈ calls → r.Fits sheetId

variable {calls : List ArchiveCall}

theorem answers_save (r : DirectoryArchive) (fs : FileSystem) (sheetId : String) (s : Document)
    (calls : List ArchiveCall) :
    answers r fs (.save sheetId s :: calls) =
      (r.save fs sheetId s).1.map (fun _ => none) :: answers r (r.save fs sheetId s).2 calls := rfl

/-- The archive in a directory finds the newest document of every stem. -/
theorem Stands.answers_eq (h : r.Stands fs saved) (hcalls : ∀ c ∈ calls, c.Storable)
    (hfit : r.SavesFit calls) :
    answers r fs calls = (answersBy fileStem saved calls).map .ok := by
  -- induction on the calls; the directory is empty until the first save that fits
  induction calls generalizing fs saved with
  | nil => rfl
  | cons c calls ih =>
    obtain ⟨hc, hmore⟩ := List.forall_mem_cons.1 hcalls
    have hrest : r.SavesFit calls := fun sheetId s hmem =>
      hfit sheetId s (List.mem_cons_of_mem _ hmem)
    cases c with
    | save sheetId s =>
      obtain ⟨fs', hsave, hstands⟩ := h.save (hfit sheetId s List.mem_cons_self) hc
      rw [answers_save, hsave, ih hstands hmore hrest]
      rfl
    | load sheetId =>
      have hload : Archive.load r fs sheetId = .ok (newest fileStem saved sheetId) :=
        h.load sheetId
      rw [answers_load, hload, ih h hmore hrest]
      rfl

/-- If the file system works, every save has fitted. -/
theorem Stands.savesFit (h : r.Stands fs saved) (hcalls : ∀ c ∈ calls, c.Storable)
    (hworks : StorageWorks (answers r fs calls)) : r.SavesFit calls := by
  induction calls generalizing fs saved with
  | nil => exact fun _ _ hmem => nomatch hmem
  | cons c calls ih =>
    obtain ⟨hc, hmore⟩ := List.forall_mem_cons.1 hcalls
    intro otherId t hmem
    cases c with
    | save sheetId s =>
      rw [answers_save] at hworks
      -- a save that does not fit is answered with an error of the file system
      by_cases hfits : r.Fits sheetId
      · obtain ⟨fs', hsave, hstands⟩ := h.save hfits hc
        rw [hsave] at hworks
        rcases List.mem_cons.1 hmem with heq | hmem
        · injection heq with hid
          exact hid ▸ hfits
        · exact ih hstands hmore (fun e he => hworks e (List.mem_cons_of_mem _ he)) otherId t hmem
      · rw [h.save_of_not_fits hfits s] at hworks
        exact absurd List.mem_cons_self (hworks .nameTooLong)
    | load sheetId =>
      rw [answers_load] at hworks
      have hmem : ArchiveCall.save otherId t ∈ calls :=
        (List.mem_cons.1 hmem).resolve_left fun heq => nomatch heq
      exact ih h hmore (fun e he => hworks e (List.mem_cons_of_mem _ he)) otherId t hmem

/-- If every save fits, the file system works. -/
theorem Stands.storageWorks (h : r.Stands fs saved) (hcalls : ∀ c ∈ calls, c.Storable)
    (hfit : r.SavesFit calls) : StorageWorks (answers r fs calls) := by
  intro e he
  rw [h.answers_eq hcalls hfit, List.mem_map] at he
  obtain ⟨found, -, hfound⟩ := he
  cases hfound

end DirectoryArchive

/-! ### Agreement -/

section Agreement

variable {r : DirectoryArchive} {fs : FileSystem}

theorem answers_memory_eq (fs : FileSystem) (calls : List ArchiveCall) :
    answers MemoryArchive.empty fs calls = (answersBy id [] calls).map .ok :=
  MemoryArchive.answers_eq (fun _ => rfl) fs calls

/-- From an empty directory on, and as long as the file system works, a load from the directory
finds the newest document that was saved under an id with the same stem, and a load from memory the
newest one that was saved under the same id.  So the archives agree on all runs over some ids
exactly if no id that can be saved shares its stem with another of them. -/
theorem answers_directory_eq_memory_iff (hempty : r.IsEmpty fs) :
    (∀ calls, answers MemoryArchive.empty fs calls = (answersBy id [] calls).map .ok ∧
      ((∀ c ∈ calls, c.Storable) → StorageWorks (answers r fs calls) →
        answers r fs calls = (answersBy fileStem [] calls).map .ok)) ∧
    ∀ ids : String → Prop,
      (∀ calls, (∀ c ∈ calls, ids c.sheetId ∧ c.Storable) → StorageWorks (answers r fs calls) →
        answers r fs calls = answers MemoryArchive.empty fs calls) ↔
      ∀ a b, ids a → ids b → r.Fits a → fileStem a = fileStem b → a = b := by
  have hstands : r.Stands fs [] := .inl ⟨rfl, hempty⟩
  refine ⟨fun calls => ⟨answers_memory_eq fs calls, fun hcalls hworks =>
    hstands.answers_eq hcalls (hstands.savesFit hcalls hworks)⟩, fun ids => ⟨?_, ?_⟩⟩
  · intro hagree a b ha hb hfits hstem
    -- what is saved as `a` is found as `b` in the directory, so in memory, too
    let s : Document := ⟨Grid.empty, 1, 1, Document.standardKind⟩
    have hs : s.Storable := ⟨fun _ he => (List.not_mem_nil he).elim, by decide, by decide⟩
    let calls : List ArchiveCall := [.save a s, .load b]
    have hcalls : ∀ c ∈ calls, ids c.sheetId ∧ c.Storable := by
      intro c hc
      rcases List.mem_pair.1 hc with rfl | rfl
      · exact ⟨ha, hs⟩
      · exact ⟨hb, trivial⟩
    have hstorable : ∀ c ∈ calls, c.Storable := fun c hc => (hcalls c hc).2
    have hfit : r.SavesFit calls := by
      intro sheetId t hmem
      rcases List.mem_pair.1 hmem with heq | heq
      · injection heq with hid
        exact hid ▸ hfits
      · cases heq
    have hsame := hagree calls hcalls (hstands.storageWorks hstorable hfit)
    rw [hstands.answers_eq hstorable hfit, answers_memory_eq] at hsame
    have hnewest : newest fileStem [(a, s)] b = newest id [(a, s)] b := by
      simpa [calls, answersBy] using hsame
    rw [newest_cons, newest_cons, if_pos hstem] at hnewest
    by_contra hne
    rw [id, id, if_neg hne] at hnewest
    cases hnewest
  · intro hinjective calls hcalls hworks
    have hstorable : ∀ c ∈ calls, c.Storable := fun c hc => (hcalls c hc).2
    have hfit := hstands.savesFit hstorable hworks
    rw [hstands.answers_eq hstorable hfit, answers_memory_eq]
    -- for the ids of such a run, equal stems are equal ids, so the newest documents are the same
    have hkeys (a b : String) (ha : ids a ∧ r.Fits a) (hb : ids b) :
        fileStem a = fileStem b ↔ id a = id b :=
      ⟨hinjective a b ha.1 hb ha.2, congrArg fileStem⟩
    rw [answersBy_congr hkeys (fun _ he => (List.not_mem_nil he).elim) (fun c hc => (hcalls c hc).1)
      fun sheetId s hmem => ⟨(hcalls _ hmem).1, hfit sheetId s hmem⟩]

/-- A directory below the working directory. -/
def grids : DirectoryArchive := ⟨"grids"⟩

theorem grids_isEmpty : grids.IsEmpty .empty := by
  have hmake : FileSystem.makeDirectories .empty "grids" = .ok ⟨[(["grids"], .directory)]⟩ := by
    decide +kernel
  refine ⟨_, ["grids"], hmake, ⟨by decide +kernel, by decide +kernel, by decide⟩, ?_⟩
  intro name hname
  rw [node?_of_not_isFixed (not_isFixed_concat hname _), List.lookup_cons,
    beq_eq_false_iff_ne.2 (by simp)]
  rfl

/-- A document of one cell. -/
def oneCell (kind : String) : Document := ⟨Grid.ofList [(⟨0, 0⟩, "1")], 1, 1, kind⟩

theorem storable_oneCell (kind : String) : (oneCell kind).Storable where
  ids := by
    have hentries : (Grid.ofList [(⟨0, 0⟩, "1")]).entries = [(⟨0, 0⟩, "1")] := by decide +kernel
    intro e he
    rw [oneCell, hentries, List.mem_singleton] at he
    exact he ▸ ⟨by decide, by decide⟩
  rows := show 1 < Word.size by decide
  cols := show 1 < Word.size by decide

/-- Two sheets are saved and loaded under ids with different stems, and so is one without a
document. -/
def threeSheets : List ArchiveCall :=
  [.save "a" (oneCell "first"), .save "a b" (oneCell "second"), .load "a", .load "a b", .load "a-b"]

theorem answers_directory_eq_memory_threeSheets :
    grids.IsEmpty .empty ∧
      (∀ c ∈ threeSheets, c.sheetId ∈ ["a", "a b", "a-b"] ∧ c.Storable) ∧
      StorageWorks (answers grids .empty threeSheets) ∧
      answers grids .empty threeSheets = answers MemoryArchive.empty .empty threeSheets := by
  have hcalls : ∀ c ∈ threeSheets, c.sheetId ∈ ["a", "a b", "a-b"] ∧ c.Storable := by
    simp [threeSheets, ArchiveCall.sheetId, ArchiveCall.Storable, storable_oneCell]
  have hfit : grids.SavesFit threeSheets := by
    intro sheetId s hmem
    have hid : sheetId = "a" ∨ sheetId = "a b" := by
      simp only [threeSheets, List.mem_cons, ArchiveCall.save.injEq] at hmem
      grind
    rcases hid with rfl | rfl
    · decide +kernel
    · decide +kernel
  have hworks : StorageWorks (answers grids .empty threeSheets) :=
    DirectoryArchive.Stands.storageWorks (.inl ⟨rfl, grids_isEmpty⟩)
      (fun c hc => (hcalls c hc).2) hfit
  refine ⟨grids_isEmpty, hcalls, hworks, ((answers_directory_eq_memory_iff grids_isEmpty).2
    fun sheetId => sheetId ∈ ["a", "a b", "a-b"]).2 ?_ threeSheets hcalls hworks⟩
  have hstems : ∀ a ∈ ["a", "a b", "a-b"], ∀ b ∈ ["a", "a b", "a-b"],
      fileStem a = fileStem b → a = b := by decide +kernel
  exact fun a b ha hb _ => hstems a ha b hb

/-- A document that is saved under an id with a blank is loaded from the directory under the id with
`_` in its place, under which nothing has been saved. -/
theorem answers_directory_ne_memory_blank :
    grids.IsEmpty .empty ∧
      answers grids .empty [.save "a b" (oneCell "sheet"), .load "a_b"] =
        [.ok none, .ok (some (oneCell "sheet"))] ∧
      answers MemoryArchive.empty .empty [.save "a b" (oneCell "sheet"), .load "a_b"] =
        [.ok none, .ok none] :=
  ⟨grids_isEmpty, by decide +kernel, by decide +kernel⟩

end Agreement

end Spreadsheet
