import Spreadsheet.Proofs.Files.Places
import Spreadsheet.Proofs.Json.Written
import Spreadsheet.Settings

/-!
# Spreadsheet.Proofs.Settings.Merging — settings files and the standard settings

A settings file is an object, whose members may give any of the eight fields, in any order and among
others that mean nothing.  What it gives takes the place of the standard settings, field by field.  A
file that has been written gives all eight, so the settings are read back as they were.
-/

namespace Spreadsheet

namespace Settings

open JsonTree

/-! ### Settings as entries -/

/-- The value of one field. -/
inductive Entry where
  | rows (n : Nat)
  | cols (n : Nat)
  | columnWidth (n : Nat)
  | saveDelay (n : Nat)
  | historyLimit (n : Nat)
  | dataDir (path : String)
  | logFile (path : String)
  | savesOnExit (b : Bool)
deriving DecidableEq, Repr

namespace Entry

/-- The name of the field in a file. -/
def name : Entry → String
  | rows _ => "default_rows"
  | cols _ => "default_cols"
  | columnWidth _ => "column_width"
  | saveDelay _ => "save_debounce_ms"
  | historyLimit _ => "history_limit"
  | dataDir _ => "data_dir"
  | logFile _ => "log_file"
  | savesOnExit _ => "flush_on_exit"

/-- The value as JSON. -/
def value : Entry → JsonValue
  | rows n | cols n | columnWidth n | saveDelay n | historyLimit n => .natural n
  | dataDir path | logFile path => .text path
  | savesOnExit b => .bool b

/-- The value is one of its field's type: a 16-bit word for the column width, 64-bit words for the
other numbers. -/
def Fits : Entry → Prop
  | rows n | cols n | saveDelay n | historyLimit n => n < Word.size
  | columnWidth n => n < Word.shortSize
  | dataDir _ | logFile _ | savesOnExit _ => True

/-- The settings with this value in its field. -/
def assign : Entry → Settings → Settings
  | rows n, s => { s with rows := n }
  | cols n, s => { s with cols := n }
  | columnWidth n, s => { s with columnWidth := n }
  | saveDelay n, s => { s with saveDelay := n }
  | historyLimit n, s => { s with historyLimit := n }
  | dataDir path, s => { s with dataDir := path }
  | logFile path, s => { s with logFile := path }
  | savesOnExit b, s => { s with savesOnExit := b }

end Entry

/-- The values of all fields. -/
def entries (s : Settings) : List Entry :=
  [.rows s.rows, .cols s.cols, .columnWidth s.columnWidth, .saveDelay s.saveDelay,
    .historyLimit s.historyLimit, .dataDir s.dataDir, .logFile s.logFile,
    .savesOnExit s.savesOnExit]

/-- All values are of their fields' types. -/
def Fits (s : Settings) : Prop := ∀ e ∈ s.entries, e.Fits

theorem toJson_eq (s : Settings) :
    s.toJson = .object (s.entries.map fun e => (e.name, e.value)) := rfl

/-- An assigned value is read back from its field, and no other field has changed. -/
theorem entries_assign (e : Entry) (s : Settings) :
    (e.assign s).entries = s.entries.map fun x => if x.name = e.name then e else x := by
  cases e <;> simp [Entry.assign, entries, Entry.name]

theorem Entry.name_mem (e : Entry) : e.name ∈ fieldNames fields := by
  cases e <;> simp [fieldNames, fields, name]

/-- Every entry is taken by its field. -/
theorem Entry.assigns {e : Entry} (h : e.Fits) :
    Assigns fields e.name (ofValue e.value) e.assign := by
  cases e with
  | rows n => exact ⟨fields[0], rfl, fun _ => congrArg (Except.map _) (asNatural_ofValue h)⟩
  | cols n => exact ⟨fields[1], rfl, fun _ => congrArg (Except.map _) (asNatural_ofValue h)⟩
  | columnWidth n => exact ⟨fields[2], rfl, fun _ => congrArg (Except.map _) (asNatural_ofValue h)⟩
  | saveDelay n => exact ⟨fields[3], rfl, fun _ => congrArg (Except.map _) (asNatural_ofValue h)⟩
  | historyLimit n => exact ⟨fields[4], rfl, fun _ => congrArg (Except.map _) (asNatural_ofValue h)⟩
  | dataDir path =>
    exact ⟨fields[5], rfl, fun s =>
      congrArg (Except.map fun dir => ({ s with dataDir := dir } : Settings)) (asText_ofValue path)⟩
  | logFile path =>
    exact ⟨fields[6], rfl, fun s =>
      congrArg (Except.map fun path => ({ s with logFile := path } : Settings)) (asText_ofValue path)⟩
  | savesOnExit b => exact ⟨fields[7], rfl, fun _ => rfl⟩

/-! ### Values of the fields' types -/

theorem fits_assign {e : Entry} (he : e.Fits) {s : Settings} (hs : s.Fits) : (e.assign s).Fits := by
  intro x hx
  rw [entries_assign] at hx
  obtain ⟨y, hy, rfl⟩ := List.mem_map.1 hx
  split
  · exact he
  · exact hs y hy

theorem standard_fits (env : Environment) : (standard env).Fits := by
  simp [Fits, entries, Entry.Fits, standard, Word.size, Word.shortSize, SaveTimer.standardDelay,
    History.standardLimit]

/-- Whatever a field takes is a value of its type. -/
theorem exists_entry_of_put {f : JsonTree.Field Settings} (hf : f ∈ fields) {t : JsonTree}
    {s next : Settings} (h : f.put t s = .ok next) : ∃ e : Entry, e.Fits ∧ next = e.assign s := by
  simp only [fields, List.mem_cons, List.not_mem_nil, or_false] at hf
  rcases hf with rfl | rfl | rfl | rfl | rfl | rfl | rfl | rfl <;>
    obtain ⟨v, hv, rfl⟩ := exists_ok_of_map_ok h
  · exact ⟨.rows v, asNatural_lt hv, rfl⟩
  · exact ⟨.cols v, asNatural_lt hv, rfl⟩
  · exact ⟨.columnWidth v, asNatural_lt hv, rfl⟩
  · exact ⟨.saveDelay v, asNatural_lt hv, rfl⟩
  · exact ⟨.historyLimit v, asNatural_lt hv, rfl⟩
  · exact ⟨.dataDir v, trivial, rfl⟩
  · exact ⟨.logFile v, trivial, rfl⟩
  · exact ⟨.savesOnExit v, trivial, rfl⟩

/-- Settings that are read, from whatever file, have values of their fields' types. -/
theorem fits_of_read {env : Environment} {fs : FileSystem} {path : String} {s : Settings}
    (h : read env fs path = .ok s) : s.Fits := by
  unfold read at h
  split at h
  · exact Except.ok.inj h ▸ standard_fits env
  · split at h
    · rename_i text _ settings hparse
      obtain ⟨t, ht⟩ := exists_decode_of_parse hparse
      obtain rfl := Except.ok.inj h
      refine readRecord_preserves (fun f hf t s next hput hs => ?_) ht (standard_fits env)
      obtain ⟨e, he, rfl⟩ := exists_entry_of_put hf hput
      exact fits_assign he hs
    · cases h

/-! ### What a file gives -/

/-- What a file gives: some fields in some order, each of them once and with a value of its type. -/
structure Given where
  entries : List Entry
  distinct : (entries.map Entry.name).Nodup
  fits : ∀ e ∈ entries, e.Fits

namespace Given

/-- The members that give the fields. -/
def members (g : Given) : List (String × JsonTree) :=
  g.entries.map fun e => (e.name, ofValue e.value)

/-- What stands in a field: the given value if there is one. -/
def replace (g : Given) (e : Entry) : Entry := (g.entries.find? fun x => x.name = e.name).getD e

/-- The settings with what is given in its fields. -/
def onto (g : Given) (s : Settings) : Settings := g.entries.foldl (fun s e => e.assign s) s

/-- Exactly the given fields are replaced. -/
theorem entries_onto (g : Given) (s : Settings) : (g.onto s).entries = s.entries.map g.replace := by
  suffices h : ∀ es : List Entry, (es.map Entry.name).Nodup → ∀ s : Settings,
      (es.foldl (fun s e => e.assign s) s).entries =
        s.entries.map fun e => (es.find? fun x => x.name = e.name).getD e from
    h g.entries g.distinct s
  intro es hdistinct
  induction es with
  | nil => exact fun s => (List.map_id' _).symm
  | cons e es ih =>
    intro s
    obtain ⟨hnew, hlater⟩ := List.nodup_cons.1 hdistinct
    rw [List.foldl_cons, ih hlater, entries_assign, List.map_map]
    refine List.map_congr_left fun x _ => ?_
    by_cases hname : x.name = e.name
    · -- no later entry has the name of the first one
      have hnone : (es.find? fun y => y.name = e.name) = none := by
        rw [List.find?_eq_none]
        intro y hy heq
        exact hnew (of_decide_eq_true heq ▸ List.mem_map_of_mem hy)
      simp [hname, hnone]
    · simp [hname, Ne.symm hname]

end Given

/-- Of an object that gives some fields, these are read over the standard settings. -/
theorem parseJson_given (env : Environment) (g : Given) {ms : List (String × JsonTree)} {text : String}
    (htext : IsTextOf (.object (named ms) none) text)
    (hgiven : (ms.filter fun m => m.1 ∈ fieldNames fields) = g.members) :
    parseJson env text = .ok (g.onto (standard env)) := by
  have hskip : ∀ m ∈ ms, skip m.2 = .ok () := by
    obtain ⟨_, cs, _, -, hspelled, -, -⟩ := htext
    cases hspelled with
    | object hms => exact fun m hm => skip_of_mem_members hms _ (List.mem_map_of_mem hm)
  have hoptional : ∀ f ∈ fields, f.optional = true := by decide
  rw [parseJson, parse_of_isTextOf _ htext]
  exact readRecord_named hoptional (fun e he => Entry.assigns (g.fits e he)) g.distinct hgiven hskip

/-! ### Written settings -/

/-- All fields of settings. -/
def given (s : Settings) (h : s.Fits) : Given where
  entries := s.entries
  distinct := by simp [entries, Entry.name]
  fits := h

theorem given_onto {s : Settings} (h : s.Fits) (start : Settings) :
    (s.given h).onto start = s := by
  simp [Given.onto, given, entries, Entry.assign]

theorem parseJson_pretty (env : Environment) {s : Settings} (h : s.Fits) :
    parseJson env s.toJson.pretty = .ok s := by
  have hwritten : s.toJson.Written s.toJson.pretty.toList := by
    rw [JsonValue.pretty, String.toList_ofList]
    exact JsonValue.written_prettyText 0 _
  have htext := isTextOf_of_written hwritten
  rw [toJson_eq, ofValue, ofMembers_eq_named, List.map_map, ← toJson_eq] at htext
  have hknown : (List.filter (fun m => m.1 ∈ fieldNames fields) (s.given h).members) =
      (s.given h).members := by
    rw [List.filter_eq_self]
    intro m hm
    obtain ⟨e, -, rfl⟩ := List.mem_map.1 hm
    exact decide_eq_true e.name_mem
  rw [parseJson_given env (s.given h) htext hknown, given_onto]

/-- Settings can be written to a name in a directory that is there or can be made, if no directory
has the name and neither the path nor the name is too long. -/
theorem exists_write (s : Settings) {fs made : FileSystem} {path name : String} {dir : List String}
    (hmade : fs.makeDirectories path = .ok made) (hdir : made.LeadsTo path dir)
    (hname : Path.IsName name)
    (hpath : (Path.join path name).utf8ByteSize ≤ FileSystem.pathLimit)
    (hshort : name.utf8ByteSize ≤ FileSystem.nameLimit)
    (hnode : made.node? (dir ++ [name]) ≠ some .directory) :
    ∃ left, s.write fs (Path.join path name) = .ok left := by
  have hplace : made.place (Path.join path name) = .ok (dir ++ [name]) := by
    rw [hdir.place_join hname, if_neg]
    omega
  have halong : fs.makeAlong [] (Path.parents (Path.join path name)) = .ok made := by
    rw [FileSystem.makeDirectories, if_neg] at hmade
    · rw [Path.parents_join hname, hmade]
    · exact fun hnul => hdir.noNul (List.contains_iff_mem.1 hnul)
  have hwrite := FileSystem.write_of_place (Path.not_namesDirectory_join hname path) hplace hnode
    (.text s.toJson.pretty)
  rw [write, halong]
  exact ⟨_, hwrite⟩

theorem readText_of_write {s : Settings} {fs left : FileSystem} {path : String}
    (h : s.write fs path = .ok left) : left.readText path = .ok s.toJson.pretty := by
  obtain ⟨made, -, hwrite⟩ := exists_ok_of_bind_ok h
  rw [FileSystem.readText, FileSystem.read_of_write hwrite]
  rfl

theorem read_of_parseJson {env : Environment} {fs : FileSystem} {path text : String} {s : Settings}
    (htext : fs.readText path = .ok text) (h : parseJson env text = .ok s) :
    read env fs path = .ok s := by
  simp only [read, htext, h]

/-- Settings that have been written are read back as they were.  Of any file that holds an object, the
fields that it gives, whichever they are, in whatever order and among whatever other members, take
the place of the standard settings, and all other fields are the standard ones. -/
theorem files_merge_with_standard (env : Environment) :
    (∀ (s : Settings) (fs left : FileSystem) (path : String), s.Fits →
      s.write fs path = .ok left → read env left path = .ok s) ∧
    ∀ (g : Given) (ms : List (String × JsonTree)) (fs : FileSystem) (path text : String),
      fs.readText path = .ok text → IsTextOf (.object (named ms) none) text →
      (ms.filter fun m => m.1 ∈ fieldNames fields) = g.members →
      ∃ s, read env fs path = .ok s ∧ s.entries = (standard env).entries.map g.replace := by
  constructor
  · intro s fs left path hs hwrite
    exact read_of_parseJson (readText_of_write hwrite) (parseJson_pretty env hs)
  · intro g ms fs path text hread htext hgiven
    exact ⟨g.onto (standard env), read_of_parseJson hread (parseJson_given env g htext hgiven),
      g.entries_onto (standard env)⟩

/-- A file that gives two fields, the last one first, among members that mean nothing. -/
def twoFieldsFile : List (String × JsonValue) :=
  [("theme", .object [("dark", .bool true)]), ("flush_on_exit", .bool true),
    ("note", .text "40 \"rows\"\n"), ("default_rows", .natural 40)]

theorem files_merge_with_standard_twoFields :
    let env : Environment := ⟨some "/home/ada", none, none, none⟩
    let s : Settings := ⟨40, 26, 14, 0, 100, "data \\ grids", "/tmp/\t.log", true⟩
    let file : FileSystem :=
      ⟨[(["settings.json"], .file (.text (JsonValue.object twoFieldsFile).compact))]⟩
    (∃ left, s.write .empty "conf/settings.json" = .ok left ∧
      read env left "conf/settings.json" = .ok s) ∧
    ∃ merged, read env file "settings.json" = .ok merged ∧
      merged.entries = [.rows 40, .cols 26, .columnWidth 10, .saveDelay 1000, .historyLimit 100,
        .dataDir "/home/ada/.local/share/cellgrid/grids",
        .logFile "/home/ada/.cache/cellgrid/cellgrid.log", .savesOnExit true] := by
  intro env s file
  obtain ⟨hback, hmerge⟩ := files_merge_with_standard env
  constructor
  · have hmade : FileSystem.empty.makeDirectories "conf" = .ok ⟨[(["conf"], .directory)]⟩ := by
      decide +kernel
    have hdir : (⟨[(["conf"], .directory)]⟩ : FileSystem).LeadsTo "conf" ["conf"] :=
      ⟨by decide +kernel, by decide +kernel, by decide⟩
    have hname : Path.IsName "settings.json" := by constructor <;> decide
    obtain ⟨left, hwrite⟩ := s.exists_write hmade hdir hname (by decide) (by decide)
      (by decide +kernel)
    have hfits : s.Fits := by simp [Fits, entries, Entry.Fits, Word.size, Word.shortSize, s]
    exact ⟨left, hwrite, hback s .empty left _ hfits hwrite⟩
  · have hread : file.readText "settings.json" = .ok (JsonValue.object twoFieldsFile).compact := by
      decide +kernel
    have htext := isTextOf_of_written (JsonValue.written_compact (.object twoFieldsFile))
    rw [ofValue, ofMembers_eq_named] at htext
    let g : Given := ⟨[.savesOnExit true, .rows 40], by decide, by simp [Entry.Fits, Word.size]⟩
    obtain ⟨merged, hmerged, hentries⟩ := hmerge g _ file _ _ hread htext rfl
    exact ⟨merged, hmerged, hentries.trans (by decide +kernel)⟩

end Settings

end Spreadsheet
