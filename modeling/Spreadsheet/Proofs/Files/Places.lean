import Mathlib.Data.List.Infix
import Spreadsheet.Files.FileSystem
import Spreadsheet.Proofs.Interchange.Lines
import Spreadsheet.Proofs.Results

/-!
# Spreadsheet.Proofs.Files.Places — where paths lead

A name inside a directory is one more step behind the steps of the directory's path, so it leads to
a place right below that of the directory, or nowhere if the path or the name is too long.  Where
steps lead depends on the directories on the way only, and directories are never lost here: neither
by making those that are missing nor by putting and removing files.
-/

namespace Spreadsheet

/-- What is found when the entries for a key have been removed. -/
theorem lookup_filter_ne {α β : Type} [BEq α] [LawfulBEq α] [DecidableEq α]
    (entries : List (α × β)) (key other : α) :
    (entries.filter fun e => e.1 ≠ key).lookup other =
      if other = key then none else entries.lookup other := by
  induction entries with
  | nil => simp
  | cons e entries ih =>
    obtain ⟨k, v⟩ := e
    by_cases hkey : k = key
    · subst hkey
      rw [List.filter_cons_of_neg (by simp), ih, List.lookup_cons]
      by_cases hother : other = k
      · rw [if_pos hother, if_pos hother]
      · rw [if_neg hother, if_neg hother, beq_eq_false_iff_ne.2 hother]
    · rw [List.filter_cons_of_pos (by simpa using hkey), List.lookup_cons, List.lookup_cons, ih]
      by_cases hother : other = k
      · have hne : ¬ other = key := hother ▸ hkey
        simp only [beq_iff_eq.2 hother, if_neg hne]
      · rw [beq_eq_false_iff_ne.2 hother]

namespace Path

open Interchange

/-- A text that is one step down. -/
structure IsName (name : String) : Prop where
  filled : name.toList ≠ []
  noSlash : '/' ∉ name.toList
  noNul : '\x00' ∉ name.toList
  ne_stay : name ≠ stay
  ne_up : name ≠ up

/-- The pieces of a text in which a separator stands are those before it and those behind it. -/
theorem splitAt_at_separator (sep : Char) (before behind : List Char) :
    splitAt sep (before ++ sep :: behind) = splitAt sep before ++ splitAt sep behind := by
  induction before with
  | nil =>
    rw [List.nil_append, splitAt]
    exact if_pos rfl
  | cons c before ih =>
    rw [List.cons_append, splitAt, splitAt]
    by_cases hc : c = sep
    · rw [if_pos hc, if_pos hc, ih]; rfl
    · rw [if_neg hc, if_neg hc, ih]
      cases hpieces : splitAt sep before with
      | nil => exact absurd hpieces (splitAt_ne_nil sep before)
      | cons piece pieces => rfl

variable {dir name : String}

theorem IsName.not_isAbsolute (h : IsName name) : isAbsolute name = false := by
  rw [isAbsolute, beq_eq_false_iff_ne]
  exact fun hhead => h.noSlash (List.mem_of_head? hhead)

/-- What stands before a name in the path of the name inside a directory. -/
def before (dir : String) : String :=
  if dir.isEmpty then "" else if namesDirectory dir then dir else dir ++ "/"

theorem join_eq (h : IsName name) (dir : String) : join dir name = before dir ++ name := by
  rw [join, before, h.not_isAbsolute, Bool.false_or]
  by_cases hempty : dir.isEmpty = true
  · rw [if_pos hempty, if_pos hempty, String.empty_append]
  · rw [if_neg hempty, if_neg hempty]
    by_cases hslash : namesDirectory dir = true
    · rw [if_pos hslash, if_pos hslash]
    · rw [if_neg hslash, if_neg hslash]

theorem noNul_before (h : '\x00' ∉ dir.toList) : '\x00' ∉ (before dir).toList := by
  rw [before]
  split
  · exact List.not_mem_nil
  · split
    · exact h
    · rw [String.toList_append, List.mem_append, not_or]
      exact ⟨h, by decide⟩

theorem not_namesDirectory_join (h : IsName name) (dir : String) :
    namesDirectory (join dir name) = false := by
  rw [namesDirectory, join_eq h, String.toList_append, List.getLast?_append,
    List.getLast?_eq_some_getLast h.filled, Option.some_or, beq_eq_false_iff_ne]
  exact fun hlast => h.noSlash (Option.some.inj hlast ▸ List.getLast_mem h.filled)

/-- The steps of the path of a name are those of the directory and the name. -/
theorem steps_join (h : IsName name) (dir : String) :
    steps (join dir name) = steps dir ++ [name] := by
  have hname : ((splitAt '/' name.toList).filter fun p => p ≠ []).map String.ofList = [name] := by
    rw [splitAt_of_not_mem h.noSlash, List.filter_cons_of_pos (by simpa using h.filled),
      List.filter_nil, List.map_singleton, String.ofList_toList]
  rw [join_eq h, before]
  by_cases hempty : dir.isEmpty = true
  · have hdir : dir = "" := String.isEmpty_iff.1 hempty
    subst hdir
    rw [if_pos hempty, String.empty_append, steps, h.not_isAbsolute]
    exact hname
  · have hfilled : dir.toList ≠ [] := fun hnil =>
      hempty (String.isEmpty_iff.2 (String.toList_eq_nil_iff.1 hnil))
    -- with the slash, what stands before the name has the pieces of the directory and an empty one
    obtain ⟨first, hdir, hfirst⟩ : ∃ first : List Char,
        (before dir).toList = first ++ ['/'] ∧
          ((splitAt '/' dir.toList).filter fun p => p ≠ []) =
            (splitAt '/' first).filter fun p => p ≠ [] := by
      rw [before, if_neg hempty]
      by_cases hslash : namesDirectory dir = true
      · obtain ⟨first, hfirst⟩ := List.getLast?_eq_some_iff.1 (beq_iff_eq.1 hslash)
        refine ⟨first, by rw [if_pos hslash, hfirst], ?_⟩
        rw [hfirst, splitAt_at_separator, List.filter_append]
        exact List.append_nil _
      · exact ⟨dir.toList, by rw [if_neg hslash, String.toList_append]; rfl, rfl⟩
    -- it is the first character of the directory that makes a path absolute
    have habsolute : isAbsolute (before dir ++ name) = isAbsolute dir := by
      rw [isAbsolute, isAbsolute, String.toList_append, before, if_neg hempty]
      obtain ⟨c, cs, hcs⟩ := List.exists_cons_of_ne_nil hfilled
      split
      · rw [hcs]; rfl
      · rw [String.toList_append, hcs]; rfl
    have hbelow : ((splitAt '/' (before dir ++ name).toList).filter fun p => p ≠ []).map
        String.ofList =
        ((splitAt '/' dir.toList).filter fun p => p ≠ []).map String.ofList ++ [name] := by
      rw [String.toList_append, hdir, List.append_assoc, List.singleton_append,
        splitAt_at_separator, List.filter_append, List.map_append, hname, hfirst]
    rw [before, if_neg hempty] at habsolute hbelow
    rw [if_neg hempty, steps, steps, habsolute, hbelow]
    split <;> rfl

theorem parents_join (h : IsName name) (dir : String) : parents (join dir name) = names dir := by
  rw [parents, names, steps_join h, List.filter_append, List.filter_cons_of_pos (by simpa using h.ne_stay),
    List.filter_nil, List.dropLast_concat, names]

end Path

namespace FileSystem

/-! ### The nodes after a change -/

/-- Whether there is a directory at a place in every file system. -/
def IsFixed (place : List String) : Prop := isAtOrAbove place = true ∨ place = [Path.root]

variable {fs made : FileSystem} {place here dir : List String}

theorem node?_of_isFixed (h : IsFixed place) (fs : FileSystem) :
    fs.node? place = some .directory := if_pos h

theorem node?_of_not_isFixed (h : ¬ IsFixed place) (fs : FileSystem) :
    fs.node? place = fs.nodes.lookup place := if_neg h

theorem node?_removed (h : ¬ IsFixed place) (fs : FileSystem) (other : List String) :
    (fs.removed place).node? other = if other = place then none else fs.node? other := by
  by_cases hother : IsFixed other
  · have hne : other ≠ place := fun heq => h (heq ▸ hother)
    rw [node?_of_isFixed hother, node?_of_isFixed hother, if_neg hne]
  · rw [node?_of_not_isFixed hother, node?_of_not_isFixed hother, removed, lookup_filter_ne]

theorem node?_put (h : ¬ IsFixed place) (fs : FileSystem) (n : Node) (other : List String) :
    (fs.put place n).node? other = if other = place then some n else fs.node? other := by
  by_cases hother : IsFixed other
  · have hne : other ≠ place := fun heq => h (heq ▸ hother)
    rw [node?_of_isFixed hother, node?_of_isFixed hother, if_neg hne]
  · rw [node?_of_not_isFixed hother, put, List.lookup_cons, removed, lookup_filter_ne]
    by_cases heq : other = place
    · rw [beq_iff_eq.2 heq, if_pos heq, if_pos heq]
    · rw [if_neg heq, if_neg heq, beq_eq_false_iff_ne.2 heq, node?_of_not_isFixed hother]

theorem not_isFixed_concat {name : String} (h : Path.IsName name) (dir : List String) :
    ¬ IsFixed (dir ++ [name]) := by
  rintro (hup | hroot)
  · rw [isAtOrAbove, List.all_append, Bool.and_eq_true] at hup
    exact h.ne_up (beq_iff_eq.1 (List.all_eq_true.1 hup.2 name List.mem_cons_self))
  · have hname : name = Path.root := by
      have hlast := congrArg List.getLast? hroot
      rw [List.getLast?_concat] at hlast
      exact Option.some.inj hlast
    exact h.noSlash (hname ▸ by decide)

/-! ### Where steps lead -/

/-- Where one step leads from a directory. -/
def next (here : List String) (step : String) : Except FileError (List String) :=
  if step = Path.stay then .ok here
  else if step = Path.up then .ok (above here)
  else if nameLimit < step.utf8ByteSize then .error .nameTooLong
  else .ok (here ++ [step])

theorem next_name {name : String} (h : Path.IsName name) (dir : List String) :
    next dir name =
      if nameLimit < name.utf8ByteSize then .error .nameTooLong else .ok (dir ++ [name]) := by
  rw [next, if_neg h.ne_stay, if_neg h.ne_up]

theorem follow_cons (h : fs.node? here = some .directory) (step : String) (steps : List String) :
    fs.follow here (step :: steps) = (next here step).bind fun there => fs.follow there steps := by
  rw [follow, h, next]
  dsimp only
  split
  · rfl
  split
  · rfl
  split <;> rfl

/-- What leads somewhere takes its first step from a directory. -/
theorem next_of_follow {step : String} {steps : List String}
    (h : fs.follow here (step :: steps) = .ok dir) :
    fs.node? here = some .directory ∧
      ∃ there, next here step = .ok there ∧ fs.follow there steps = .ok dir := by
  have hhere : fs.node? here = some .directory := by
    rw [follow] at h
    split at h
    · cases h
    · cases h
    · assumption
  rw [follow_cons hhere] at h
  cases hnext : next here step with
  | error e => rw [hnext] at h; cases h
  | ok there =>
    rw [hnext] at h
    exact ⟨hhere, there, rfl, h⟩

theorem follow_append {steps : List String} (h : fs.follow here steps = .ok dir)
    (more : List String) : fs.follow here (steps ++ more) = fs.follow dir more := by
  induction steps generalizing here with
  | nil =>
    rw [follow, Except.ok.injEq] at h
    rw [List.nil_append, h]
  | cons step steps ih =>
    obtain ⟨hhere, there, hnext, hthere⟩ := next_of_follow h
    rw [List.cons_append, follow_cons hhere, hnext]
    exact ih hthere

/-- What leads to a directory begins in one. -/
theorem directory_of_follow {steps : List String} (h : fs.follow here steps = .ok dir)
    (hdir : fs.node? dir = some .directory) : fs.node? here = some .directory := by
  cases steps with
  | nil =>
    rw [follow, Except.ok.injEq] at h
    exact h ▸ hdir
  | cons step steps => exact (next_of_follow h).1

/-- Every directory of one file system is a directory of the other. -/
def KeepsDirectories (fs fs' : FileSystem) : Prop :=
  ∀ place, fs.node? place = some .directory → fs'.node? place = some .directory

theorem follow_of_keeps {fs' : FileSystem} (hkeeps : KeepsDirectories fs fs') {steps : List String}
    (h : fs.follow here steps = .ok dir) : fs'.follow here steps = .ok dir := by
  induction steps generalizing here with
  | nil => exact h
  | cons step steps ih =>
    obtain ⟨hhere, there, hnext, hthere⟩ := next_of_follow h
    rw [follow_cons (hkeeps here hhere), hnext]
    exact ih hthere

theorem place_of_keeps {fs' : FileSystem} (hkeeps : KeepsDirectories fs fs') {path : String}
    (h : fs.place path = .ok dir) : fs'.place path = .ok dir := by
  rw [FileSystem.place, walk] at h ⊢
  split at h
  · cases h
  split at h
  · cases h
  split at h
  · cases h
  rename_i hnul hfilled hshort
  rw [if_neg hnul, if_neg hfilled, if_neg hshort]
  exact follow_of_keeps hkeeps h

/-! ### Making directories -/

/-- Directories have been added where nothing was, and nothing else has changed. -/
def AddsDirectories (fs made : FileSystem) : Prop :=
  ∀ place, made.node? place = fs.node? place ∨
    fs.node? place = none ∧ made.node? place = some .directory

theorem AddsDirectories.refl (fs : FileSystem) : AddsDirectories fs fs := fun _ => .inl rfl

theorem AddsDirectories.trans {fs' : FileSystem} (h : AddsDirectories fs fs')
    (h' : AddsDirectories fs' made) : AddsDirectories fs made := by
  intro place
  rcases h' place with hsame | ⟨hnone, hnew⟩
  · rw [hsame]
    exact h place
  · rcases h place with hsame | ⟨-, hdir⟩
    · exact .inr ⟨hsame ▸ hnone, hnew⟩
    · rw [hdir] at hnone
      cases hnone

theorem AddsDirectories.keeps (h : AddsDirectories fs made) : KeepsDirectories fs made := by
  intro place hplace
  rcases h place with hsame | ⟨hnone, -⟩
  · rw [hsame, hplace]
  · rw [hplace] at hnone
    cases hnone

/-- A node that is no directory was there before. -/
theorem AddsDirectories.node?_eq (h : AddsDirectories fs made)
    (hplace : made.node? place ≠ some .directory) : fs.node? place = made.node? place := by
  rcases h place with hsame | ⟨-, hdir⟩
  · exact hsame.symm
  · exact absurd hdir hplace

theorem addsDirectories_put (h : fs.node? place = none) :
    AddsDirectories fs (fs.put place .directory) := by
  have hfixed : ¬ IsFixed place := fun hfixed => by
    rw [node?_of_isFixed hfixed] at h
    cases h
  intro other
  rw [node?_put hfixed]
  by_cases hother : other = place
  · rw [if_pos hother]
    exact .inr ⟨hother ▸ h, rfl⟩
  · exact .inl (if_neg hother)

/-- There are directories all the way to a place. -/
def Grounded (fs : FileSystem) (here : List String) : Prop :=
  ∀ place, place <+: here → fs.node? place = some .directory

theorem grounded_nil (fs : FileSystem) : Grounded fs [] := by
  intro place hplace
  rw [List.prefix_nil.1 hplace]
  exact node?_of_isFixed (.inl rfl) fs

theorem grounded_concat {name : String} (h : Grounded fs here)
    (hname : fs.node? (here ++ [name]) = some .directory) : Grounded fs (here ++ [name]) := by
  intro place hplace
  rcases List.prefix_concat_iff.1 hplace with rfl | hplace
  · exact hname
  · exact h place hplace

theorem grounded_above (h : Grounded fs here) : Grounded fs (above here) := by
  rw [above]
  split
  · exact h
  split
  · rename_i hup
    intro place hplace
    rcases List.prefix_concat_iff.1 hplace with rfl | hplace
    · refine node?_of_isFixed (.inl ?_) fs
      rw [isAtOrAbove, List.all_append, ← isAtOrAbove, hup]
      rfl
    · exact h place hplace
  · exact fun place hplace => h place (hplace.trans (List.dropLast_prefix here))

theorem Grounded.mono (h : Grounded fs here) (hkeeps : KeepsDirectories fs made) :
    Grounded made here := fun place hplace => hkeeps place (h place hplace)

/-- The first step along which directories are made leads to a directory, which is made if it is
missing; the others are taken from there. -/
theorem exists_next_of_makeAlong {step : String} {steps : List String} (h : Grounded fs here)
    (hmade : fs.makeAlong here ((step :: steps).filter fun step => step ≠ Path.stay) = .ok made) :
    ∃ fs' there, AddsDirectories fs fs' ∧ next here step = .ok there ∧ Grounded fs' there ∧
      fs'.makeAlong there (steps.filter fun step => step ≠ Path.stay) = .ok made := by
  by_cases hstay : step = Path.stay
  · rw [List.filter_cons_of_neg (by simp [hstay])] at hmade
    exact ⟨fs, here, .refl fs, if_pos hstay, h, hmade⟩
  rw [List.filter_cons_of_pos (by simp [hstay]), makeAlong] at hmade
  by_cases hup : step = Path.up
  · rw [if_pos hup] at hmade
    exact ⟨fs, above here, .refl fs, by rw [next, if_neg hstay, if_pos hup],
      grounded_above h, hmade⟩
  rw [if_neg hup] at hmade
  by_cases hlong : nameLimit < step.utf8ByteSize
  · rw [if_pos hlong] at hmade
    cases hmade
  rw [if_neg hlong] at hmade
  have hnext : next here step = .ok (here ++ [step]) := by
    rw [next, if_neg hstay, if_neg hup, if_neg hlong]
  cases hnode : fs.node? (here ++ [step]) with
  | none =>
    rw [hnode] at hmade
    have hadds := addsDirectories_put hnode
    refine ⟨_, here ++ [step], hadds, hnext, grounded_concat (h.mono hadds.keeps) ?_, hmade⟩
    -- a place with nothing in it is none of the fixed ones
    have hfixed : ¬ IsFixed (here ++ [step]) := fun hfixed => by
      rw [node?_of_isFixed hfixed] at hnode
      cases hnode
    rw [node?_put hfixed, if_pos rfl]
  | some n =>
    rw [hnode] at hmade
    cases n with
    | file c => cases hmade
    | directory => exact ⟨fs, _, .refl fs, hnext, grounded_concat h hnode, hmade⟩

/-- The directories that are missing along some steps are made, and the steps lead to a directory
then. -/
theorem makeAlong_spec {steps : List String} (h : Grounded fs here)
    (hmade : fs.makeAlong here (steps.filter fun step => step ≠ Path.stay) = .ok made) :
    AddsDirectories fs made ∧
      ∃ dir, made.follow here steps = .ok dir ∧ made.node? dir = some .directory := by
  induction steps generalizing fs here with
  | nil =>
    rw [List.filter_nil, makeAlong, Except.ok.injEq] at hmade
    subst hmade
    exact ⟨.refl fs, here, rfl, h here (List.prefix_refl here)⟩
  | cons step steps ih =>
    obtain ⟨fs', there, hadds, hnext, hthere, hrest⟩ := exists_next_of_makeAlong h hmade
    obtain ⟨hmore, dir, hfollow, hdir⟩ := ih hthere hrest
    have hhere := hmore.keeps here (hadds.keeps here (h here (List.prefix_refl here)))
    refine ⟨hadds.trans hmore, dir, ?_, hdir⟩
    rw [follow_cons hhere, hnext]
    exact hfollow

/-- Nothing is made along steps that lead to a directory. -/
theorem makeAlong_eq_self {steps : List String} (h : fs.follow here steps = .ok dir)
    (hdir : fs.node? dir = some .directory) :
    fs.makeAlong here (steps.filter fun step => step ≠ Path.stay) = .ok fs := by
  induction steps generalizing here with
  | nil => rfl
  | cons step steps ih =>
    obtain ⟨-, there, hnext, hthere⟩ := next_of_follow h
    have hrest := ih hthere
    rw [next] at hnext
    -- a step that stays, one up, one down; a name that is too long leads nowhere
    by_cases hstay : step = Path.stay
    · rw [if_pos hstay, Except.ok.injEq] at hnext
      rw [List.filter_cons_of_neg (by simp [hstay]), hnext]
      exact hrest
    rw [if_neg hstay] at hnext
    rw [List.filter_cons_of_pos (by simp [hstay]), makeAlong]
    by_cases hup : step = Path.up
    · rw [if_pos hup, Except.ok.injEq] at hnext
      rw [if_pos hup, hnext]
      exact hrest
    rw [if_neg hup] at hnext ⊢
    by_cases hlong : nameLimit < step.utf8ByteSize
    · rw [if_pos hlong] at hnext
      cases hnext
    rw [if_neg hlong, Except.ok.injEq] at hnext
    subst hnext
    rw [if_neg hlong, directory_of_follow hthere hdir]
    exact hrest

/-! ### Paths of directories -/

/-- The path leads to the directory at a place. -/
structure LeadsTo (fs : FileSystem) (path : String) (dir : List String) : Prop where
  follow : fs.follow [] (Path.steps path) = .ok dir
  directory : fs.node? dir = some .directory
  noNul : '\x00' ∉ path.toList

variable {path name : String}

theorem LeadsTo.mono (h : LeadsTo fs path dir) (hkeeps : KeepsDirectories fs made) :
    LeadsTo made path dir :=
  ⟨follow_of_keeps hkeeps h.follow, hkeeps dir h.directory, h.noNul⟩

theorem makeDirectories_spec (h : fs.makeDirectories path = .ok made) :
    AddsDirectories fs made ∧ ∃ dir, LeadsTo made path dir := by
  rw [makeDirectories] at h
  by_cases hnul : path.toList.contains '\x00' = true
  · rw [if_pos hnul] at h
    cases h
  rw [if_neg hnul] at h
  obtain ⟨hadds, dir, hfollow, hdir⟩ := makeAlong_spec (grounded_nil fs) h
  exact ⟨hadds, dir, hfollow, hdir, fun hmem => hnul (List.contains_iff_mem.2 hmem)⟩

theorem LeadsTo.makeDirectories (h : LeadsTo fs path dir) : fs.makeDirectories path = .ok fs := by
  rw [FileSystem.makeDirectories, if_neg (fun hnul => h.noNul (List.contains_iff_mem.1 hnul))]
  exact makeAlong_eq_self h.follow h.directory

/-- The path of a name inside a directory leads right below the directory if it can be taken at
all. -/
theorem LeadsTo.place_join (h : LeadsTo fs path dir) (hname : Path.IsName name) :
    fs.place (Path.join path name) =
      if pathLimit < (Path.join path name).utf8ByteSize ∨ nameLimit < name.utf8ByteSize then
        .error .nameTooLong
      else .ok (dir ++ [name]) := by
  have hnul : ¬ (Path.join path name).toList.contains '\x00' = true := by
    rw [List.contains_iff_mem, Path.join_eq hname, String.toList_append, List.mem_append, not_or]
    exact ⟨Path.noNul_before h.noNul, hname.noNul⟩
  have hfilled : ¬ (Path.join path name).isEmpty = true := by
    rw [String.isEmpty_iff, Path.join_eq hname, ← String.toList_eq_nil_iff, String.toList_append,
      List.append_eq_nil_iff, not_and]
    exact fun _ => hname.filled
  rw [place, walk, if_neg hnul, if_neg hfilled, Path.steps_join hname, follow_append h.follow,
    follow_cons h.directory, next_name hname]
  -- the length of the path is tested before that of the name
  by_cases hpath : pathLimit < (Path.join path name).utf8ByteSize
  · rw [if_pos hpath, if_pos (.inl hpath)]
  rw [if_neg hpath]
  by_cases hlong : nameLimit < name.utf8ByteSize
  · rw [if_pos hlong, if_pos (.inr hlong)]
    rfl
  · rw [if_neg hlong, if_neg (not_or.2 ⟨hpath, hlong⟩)]
    rfl

/-! ### Written files -/

variable {left : FileSystem} {content : Content}

theorem write_of_place (hfile : Path.namesDirectory path = false) (hplace : fs.place path = .ok place)
    (hnode : fs.node? place ≠ some .directory) (content : Content) :
    fs.write path content = .ok (fs.put place (.file content)) := by
  simp only [write, hfile, Bool.false_eq_true, if_false, hplace, bind, Except.bind, if_neg hnode]

/-- A file is written to a place where there is no directory. -/
theorem exists_place_of_write (h : fs.write path content = .ok left) :
    Path.namesDirectory path = false ∧ ∃ place, fs.place path = .ok place ∧
      fs.node? place ≠ some .directory ∧ left = fs.put place (.file content) := by
  unfold write at h
  split at h
  · obtain ⟨_, -, h⟩ := exists_ok_of_bind_ok h
    cases h
  · rename_i hfile
    obtain ⟨place, hplace, h⟩ := exists_ok_of_bind_ok h
    split at h
    · cases h
    · rename_i hnode
      exact ⟨Bool.not_eq_true _ ▸ hfile, place, hplace, hnode, (Except.ok.inj h).symm⟩

theorem not_isFixed_of_node? (h : fs.node? place ≠ some .directory) : ¬ IsFixed place :=
  fun hfixed => h (node?_of_isFixed hfixed fs)

/-- What is put in place of anything but a directory leaves the directories as they are. -/
theorem keepsDirectories_put (h : fs.node? place ≠ some .directory) (n : Node) :
    KeepsDirectories fs (fs.put place n) := by
  intro other hother
  rw [node?_put (not_isFixed_of_node? h), if_neg, hother]
  rintro rfl
  exact h hother

/-- What has been written is read. -/
theorem read_of_write (h : fs.write path content = .ok left) : left.read path = .ok content := by
  obtain ⟨hfile, place, hplace, hnode, rfl⟩ := exists_place_of_write h
  have hnew : (fs.put place (.file content)).node? place = some (.file content) := by
    rw [node?_put (not_isFixed_of_node? hnode), if_pos rfl]
  rw [read, place_of_keeps (keepsDirectories_put hnode _) hplace]
  simp only [bind, Except.bind, hnew, hfile, Bool.false_eq_true, if_false]

end FileSystem

end Spreadsheet
