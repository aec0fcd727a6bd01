import Spreadsheet.Proofs.Files.Places

/-!
# Spreadsheet.Proofs.Files.Trees — what making directories leaves alone

In a tree everything lies in a directory.  Directories that are made along a path are made below the
last directory that is there, so all of them lie on the way to where the path leads, provided that
the path climbs from directories only that are there already.  Then, however far they are made,
nothing that was not there before is found inside the directory at the end of the path, and
everything else is found as before.
-/

namespace Spreadsheet

/-- What stands before a name inside a directory holds the path of the directory. -/
theorem Path.mem_before {dir : String} {c : Char} (h : c ∈ dir.toList) : c ∈ (before dir).toList := by
  rw [before]
  split
  · rename_i hempty
    rw [String.isEmpty_iff.1 hempty] at h
    exact (List.not_mem_nil h).elim
  split
  · exact h
  · rw [String.toList_append]
    exact List.mem_append_left _ h

namespace FileSystem

variable {fs left : FileSystem} {place here dir : List String} {names : List String}

/-! ### Trees -/

/-- Everything lies in a directory. -/
def IsTree (fs : FileSystem) : Prop :=
  ∀ here name, fs.node? (here ++ [name]) ≠ none → fs.node? here = some .directory

theorem isFixed_of_concat {name : String} (h : IsFixed (here ++ [name])) : IsFixed here := by
  rcases h with hup | hroot
  · rw [isAtOrAbove, List.all_append, Bool.and_eq_true] at hup
    exact .inl hup.1
  · have hhere : here = [] := by simpa using congrArg List.dropLast hroot
    exact .inl (hhere ▸ rfl)

theorem isTree_empty : IsTree .empty := by
  intro here name hnode
  by_cases hfixed : IsFixed (here ++ [name])
  · exact node?_of_isFixed (isFixed_of_concat hfixed) _
  · exact absurd (node?_of_not_isFixed hfixed _) hnode

/-- Only directories lead to a directory. -/
theorem IsTree.grounded (h : fs.IsTree) (hhere : fs.node? here = some .directory) :
    Grounded fs here := by
  induction here using List.reverseRecOn with
  | nil => exact grounded_nil fs
  | append_singleton here name ih =>
    have habove : fs.node? here = some .directory := by
      refine h here name ?_
      rw [hhere]
      exact Option.some_ne_none _
    exact grounded_concat (ih habove) hhere

/-- A tree stays one if its directories are kept and what is new lies in directories. -/
theorem IsTree.of_keeps (h : fs.IsTree) (hkeeps : KeepsDirectories fs left)
    (hnew : ∀ here name, left.node? (here ++ [name]) ≠ none →
      left.node? (here ++ [name]) = fs.node? (here ++ [name]) ∨ left.node? here = some .directory) :
    left.IsTree := by
  intro here name hnode
  rcases hnew here name hnode with hsame | hdir
  · rw [hsame] at hnode
    exact hkeeps here (h here name hnode)
  · exact hdir

/-! ### Where names lead -/

/-- The place that names lead to, if all of them lead to directories. -/
def arrival (here : List String) : List String → List String
  | [] => here
  | name :: names =>
    if name = Path.up then arrival (above here) names else arrival (here ++ [name]) names

/-- Along these names every step up is taken from a directory. -/
def ClimbsFromDirectories (fs : FileSystem) (here : List String) : List String → Prop
  | [] => True
  | name :: names =>
    if name = Path.up then
      fs.node? here = some .directory ∧ fs.ClimbsFromDirectories (above here) names
    else fs.ClimbsFromDirectories (here ++ [name]) names

/-- Names without a step up climb from nowhere. -/
theorem climbs_of_not_mem (h : Path.up ∉ names) : fs.ClimbsFromDirectories here names := by
  induction names generalizing here with
  | nil => trivial
  | cons name names ih =>
    rw [List.mem_cons, not_or] at h
    rw [ClimbsFromDirectories, if_neg (Ne.symm h.1)]
    exact ih h.2

theorem ClimbsFromDirectories.mono (h : fs.ClimbsFromDirectories here names)
    (hkeeps : KeepsDirectories fs left) : left.ClimbsFromDirectories here names := by
  induction names generalizing here with
  | nil => trivial
  | cons name names ih =>
    rw [ClimbsFromDirectories] at h ⊢
    split
    · rename_i hup
      rw [if_pos hup] at h
      exact ⟨hkeeps here h.1, ih h.2⟩
    · rename_i hup
      rw [if_neg hup] at h
      exact ih h

/-- What is not there yet is not left again: where names lead from a place below it lies below it. -/
theorem prefix_arrival (htree : fs.IsTree) (hplace : fs.node? place ≠ some .directory)
    (hclimbs : fs.ClimbsFromDirectories here names) (hhere : place <+: here) :
    place <+: arrival here names := by
  induction names generalizing here with
  | nil => exact hhere
  | cons name names ih =>
    rw [ClimbsFromDirectories] at hclimbs
    rw [arrival]
    by_cases hup : name = Path.up
    · rw [if_pos hup] at hclimbs
      exact absurd (htree.grounded hclimbs.1 place hhere) hplace
    · rw [if_neg hup] at hclimbs ⊢
      exact ih hclimbs (hhere.trans (List.prefix_append here [name]))

/-- A single step is one of three. -/
theorem next_cases {step : String} {there : List String} (h : next here step = .ok there) :
    step = Path.stay ∧ there = here ∨
      step ≠ Path.stay ∧ step = Path.up ∧ there = above here ∨
      step ≠ Path.stay ∧ step ≠ Path.up ∧ there = here ++ [step] := by
  rw [next] at h
  split at h
  · exact .inl ⟨‹_›, (Except.ok.inj h).symm⟩
  split at h
  · exact .inr (.inl ⟨‹_›, ‹_›, (Except.ok.inj h).symm⟩)
  split at h
  · cases h
  · exact .inr (.inr ⟨‹_›, ‹_›, (Except.ok.inj h).symm⟩)

theorem arrival_of_follow {steps : List String} (h : fs.follow here steps = .ok dir) :
    arrival here (steps.filter fun step => step ≠ Path.stay) = dir := by
  induction steps generalizing here with
  | nil => exact Except.ok.inj h
  | cons step steps ih =>
    obtain ⟨-, there, hnext, hthere⟩ := next_of_follow h
    rw [← ih hthere]
    rcases next_cases hnext with ⟨rfl, rfl⟩ | ⟨hstay, rfl, rfl⟩ | ⟨hstay, hup, rfl⟩
    · rw [List.filter_cons_of_neg (by simp)]
    · rw [List.filter_cons_of_pos (by simpa using hstay), arrival, if_pos rfl]
    · rw [List.filter_cons_of_pos (by simpa using hstay), arrival, if_neg hup]

theorem ClimbsFromDirectories.next {step : String} {steps there : List String}
    (h : fs.ClimbsFromDirectories here ((step :: steps).filter fun step => step ≠ Path.stay))
    (hnext : next here step = .ok there) :
    fs.ClimbsFromDirectories there (steps.filter fun step => step ≠ Path.stay) := by
  rcases next_cases hnext with ⟨rfl, rfl⟩ | ⟨hstay, rfl, rfl⟩ | ⟨hstay, hup, rfl⟩
  · rwa [List.filter_cons_of_neg (by simp)] at h
  · rw [List.filter_cons_of_pos (by simpa using hstay), ClimbsFromDirectories, if_pos rfl] at h
    exact h.2
  · rwa [List.filter_cons_of_pos (by simpa using hstay), ClimbsFromDirectories, if_neg hup] at h

/-! ### Making directories on the way -/

/-- What has been made along the first ones of some names, from where there are directories, lies on
the way to where all of them lead.  Steps up are taken from directories of `fs₀`, which has grown
into `fs` before. -/
theorem node?_of_makeAlong {fs₀ : FileSystem} {first rest : List String} (htree : fs₀.IsTree)
    (hkeeps : KeepsDirectories fs₀ fs) (hclimbs : fs₀.ClimbsFromDirectories here (first ++ rest))
    (hhere : Grounded fs here) (hmade : fs.makeAlong here first = .ok left) (place : List String) :
    left.node? place = fs.node? place ∨
      place <+: arrival here (first ++ rest) ∧ Grounded left place := by
  -- induction on the names; the files grow from step to step, and `fs₀` stays
  induction first generalizing fs here place with
  | nil =>
    rw [makeAlong, Except.ok.injEq] at hmade
    exact .inl (by rw [hmade])
  | cons name first ih =>
    rw [List.cons_append, ClimbsFromDirectories] at hclimbs
    rw [makeAlong] at hmade
    rw [List.cons_append, arrival]
    by_cases hup : name = Path.up
    · rw [if_pos hup] at hclimbs hmade ⊢
      exact ih hkeeps hclimbs.2 (grounded_above hhere) hmade place
    rw [if_neg hup] at hclimbs hmade ⊢
    by_cases hlong : nameLimit < name.utf8ByteSize
    · rw [if_pos hlong] at hmade
      cases hmade
    rw [if_neg hlong] at hmade
    cases hnode : fs.node? (here ++ [name]) with
    | some n =>
      rw [hnode] at hmade
      cases n with
      | file c => cases hmade
      | directory => exact ih hkeeps hclimbs (grounded_concat hhere hnode) hmade place
    | none =>
      rw [hnode] at hmade
      have hadds := addsDirectories_put hnode
      have hfixed : ¬ IsFixed (here ++ [name]) := fun hfixed => by
        rw [node?_of_isFixed hfixed] at hnode
        cases hnode
      have hput : (fs.put (here ++ [name]) .directory).node? (here ++ [name]) = some .directory := by
        rw [node?_put hfixed, if_pos rfl]
      have hground := grounded_concat (hhere.mono hadds.keeps) hput
      have hrest := ih (fun p hp => hadds.keeps p (hkeeps p hp)) hclimbs hground hmade
      rcases hrest place with hsame | hnew
      · rw [hsame, node?_put hfixed]
        -- only the directory just made is new here, and the way to the end leads through it
        by_cases heq : place = here ++ [name]
        · have habsent : fs₀.node? (here ++ [name]) ≠ some .directory := fun hdir => by
            rw [hkeeps _ hdir] at hnode
            cases hnode
          have hleft : KeepsDirectories (fs.put (here ++ [name]) .directory) left := fun p hp =>
            (hrest p).elim (·.trans hp) fun hnew => hnew.2 p (List.prefix_refl p)
          subst heq
          exact .inr ⟨prefix_arrival htree habsent hclimbs (List.prefix_refl _), hground.mono hleft⟩
        · exact .inl (if_neg heq)
      · exact .inr hnew

/-- However far directories have been made along a path, those that were there are kept and what is
there is a tree. -/
theorem tree_of_makeAlong {first : List String} (htree : fs.IsTree)
    (hclimbs : fs.ClimbsFromDirectories [] names) (hfirst : first <+: names)
    (hmade : fs.makeAlong [] first = .ok left) : KeepsDirectories fs left ∧ left.IsTree := by
  obtain ⟨rest, rfl⟩ := hfirst
  have hnodes := node?_of_makeAlong htree (fun _ h => h) hclimbs (grounded_nil fs) hmade
  have hkeeps : KeepsDirectories fs left := fun place hplace =>
    (hnodes place).elim (·.trans hplace) fun hnew => hnew.2 place (List.prefix_refl place)
  refine ⟨hkeeps, htree.of_keeps hkeeps fun here name _ => ?_⟩
  exact (hnodes (here ++ [name])).imp_right fun hnew => hnew.2 here (List.prefix_append here [name])

variable {path name : String}

theorem makeAlong_of_makeDirectories (h : fs.makeDirectories path = .ok left) :
    fs.makeAlong [] (Path.names path) = .ok left := by
  rw [makeDirectories] at h
  split at h
  · cases h
  · exact h

/-- A path leads to a directory that was there before directories were made only if it led there. -/
theorem LeadsTo.of_made (h : left.LeadsTo path dir) (htree : fs.IsTree)
    (hclimbs : fs.ClimbsFromDirectories [] (Path.names path))
    (hdir : fs.node? dir = some .directory) : fs.LeadsTo path dir := by
  refine ⟨?_, hdir, h.noNul⟩
  have hfollow := h.follow
  rw [Path.names] at hclimbs
  generalize Path.steps path = steps at hfollow hclimbs
  generalize ([] : List String) = here at hfollow hclimbs ⊢
  induction steps generalizing here with
  | nil => exact hfollow
  | cons step steps ih =>
    -- the steps go on below a place that is not there, so they could not lead to what is there
    have hhere : fs.node? here = some .directory := by
      by_contra habsent
      have hway := prefix_arrival htree habsent hclimbs (List.prefix_refl here)
      rw [arrival_of_follow hfollow] at hway
      exact habsent (htree.grounded hdir here hway)
    obtain ⟨-, there, hnext, hthere⟩ := next_of_follow hfollow
    rw [follow_cons hhere, hnext]
    exact ih there hthere (hclimbs.next hnext)

/-- However far directories have been made along a path, what is right inside the directory that it
leads to was there before. -/
theorem node?_inside_made {first : List String} (htree : fs.IsTree)
    (hclimbs : fs.ClimbsFromDirectories [] (Path.names path)) (hfirst : first <+: Path.names path)
    (hmade : fs.makeAlong [] first = .ok left) (h : left.LeadsTo path dir) (name : String) :
    left.node? (dir ++ [name]) = fs.node? (dir ++ [name]) := by
  obtain ⟨rest, hrest⟩ := hfirst
  rw [← hrest] at hclimbs
  refine (node?_of_makeAlong htree (fun _ h => h) hclimbs (grounded_nil fs) hmade _).resolve_right ?_
  rintro ⟨hway, -⟩
  rw [hrest, Path.names, arrival_of_follow h.follow] at hway
  have hlength := hway.length_le
  rw [List.length_append, List.length_singleton] at hlength
  omega

/-! ### What a path leads to -/

/-- What a path leads to, if anything. -/
def found? (fs : FileSystem) (path : String) : Option Node :=
  match fs.place path with
  | .ok place => fs.node? place
  | .error _ => none

theorem LeadsTo.found?_join (h : fs.LeadsTo path dir) (hname : Path.IsName name) :
    fs.found? (Path.join path name) =
      if pathLimit < (Path.join path name).utf8ByteSize ∨ nameLimit < name.utf8ByteSize then none
      else fs.node? (dir ++ [name]) := by
  rw [found?, h.place_join hname]
  by_cases hlong : pathLimit < (Path.join path name).utf8ByteSize ∨ nameLimit < name.utf8ByteSize
  · rw [if_pos hlong, if_pos hlong]
  · rw [if_neg hlong, if_neg hlong]

theorem exists_of_follow_concat {steps : List String}
    (h : fs.follow here (steps ++ [name]) = .ok place) :
    ∃ dir, fs.follow here steps = .ok dir ∧ fs.node? dir = some .directory := by
  induction steps generalizing here with
  | nil => exact ⟨here, rfl, (next_of_follow h).1⟩
  | cons step steps ih =>
    obtain ⟨hhere, there, hnext, hthere⟩ := next_of_follow h
    rw [follow_cons hhere, hnext]
    exact ih hthere

/-- Nothing is found behind a path that does not lead to a directory. -/
theorem found?_join_eq_none (hname : Path.IsName name) (h : ∀ dir, ¬ fs.LeadsTo path dir) :
    fs.found? (Path.join path name) = none := by
  rw [found?]
  cases hplace : fs.place (Path.join path name) with
  | error e => rfl
  | ok place =>
    rw [FileSystem.place, walk] at hplace
    split at hplace
    · cases hplace
    rename_i hnul
    split at hplace
    · cases hplace
    split at hplace
    · cases hplace
    rw [Path.steps_join hname] at hplace
    -- the steps before the name would lead to a directory
    obtain ⟨dir, hfollow, hdir⟩ := exists_of_follow_concat hplace
    refine absurd ⟨hfollow, hdir, fun hmem => hnul (List.contains_iff_mem.2 ?_)⟩ (h dir)
    rw [Path.join_eq hname, String.toList_append]
    exact List.mem_append_left _ (Path.mem_before hmem)

/-- However far directories have been made along a path, the same is found inside the directory that
it leads to. -/
theorem found?_join_made {first : List String} (hname : Path.IsName name) (htree : fs.IsTree)
    (hclimbs : fs.ClimbsFromDirectories [] (Path.names path)) (hfirst : first <+: Path.names path)
    (hmade : fs.makeAlong [] first = .ok left) :
    left.found? (Path.join path name) = fs.found? (Path.join path name) := by
  have hkeeps := (tree_of_makeAlong htree hclimbs hfirst hmade).1
  by_cases hleads : ∃ dir, left.LeadsTo path dir
  · obtain ⟨dir, hleads⟩ := hleads
    rw [hleads.found?_join hname, node?_inside_made htree hclimbs hfirst hmade hleads]
    -- the directory was there before, or it has just been made and is empty
    by_cases hdir : fs.node? dir = some .directory
    · rw [(hleads.of_made htree hclimbs hdir).found?_join hname]
    · have hnone : fs.node? (dir ++ [name]) = none := by
        by_contra hnode
        exact hdir (htree dir name hnode)
      have habsent : ∀ other, ¬ fs.LeadsTo path other := by
        intro other hother
        have hsame := hleads.follow.symm.trans (hother.mono hkeeps).follow
        exact hdir (Except.ok.inj hsame ▸ hother.directory)
      rw [found?_join_eq_none hname habsent, hnone, ite_self]
  · have habsent : ∀ dir, ¬ left.LeadsTo path dir := not_exists.1 hleads
    rw [found?_join_eq_none hname habsent,
      found?_join_eq_none hname fun dir h => habsent dir (h.mono hkeeps)]

end FileSystem

end Spreadsheet
