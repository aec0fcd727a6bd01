import Mathlib.Data.List.Induction
import Spreadsheet.Proofs.Document.ReadBack

/-!
# Spreadsheet.Proofs.Grid.Building — all ways to build a grid agree

Texts can be written to cells one after the other, collected and sorted at the end, or read from the
members of a JSON object, and a cell may come up several times and under several names.  A grid after
updates holds, in reading order, what the last update of each cell leaves there; the other ways lead
to the grid in which the same texts were written one after the other.
-/

namespace Spreadsheet

namespace Grid

section Defs

/-- A change of one cell. -/
inductive Update where
  | set (p : Position) (text : String)
  | erase (p : Position)
deriving DecidableEq, Repr

namespace Update

/-- The cell that is changed. -/
def cell : Update → Position
  | set p _ => p
  | erase p => p

/-- The entry that an update writes.  A blank text erases. -/
def entry : Update → Position × String
  | set p text => (p, text)
  | erase p => (p, "")

end Update

/-- Changes one cell. -/
def update (g : Grid) : Update → Grid
  | .set p text => g.set p text
  | .erase p => g.erase p

/-- The empty grid after updates. -/
def updated (us : List Update) : Grid := us.foldl update empty

/-- The last update of the cell `p` writes `text` to it, which is not blank. -/
def Leaves (us : List Update) (p : Position) (text : String) : Prop :=
  ∃ before later, us = before ++ .set p text :: later ∧ Text.isBlankText text = false ∧
    ∀ u ∈ later, u.cell ≠ p

/-- A text for a cell, under one of the names that the cell has. -/
structure Named where
  name : String
  cell : Position
  text : String
  parse_name : Position.parse name = .ok cell

namespace Named

/-- The entry without the name. -/
def entry (e : Named) : Position × String := (e.cell, e.text)

/-- The update that writes the text. -/
def set (e : Named) : Update := .set e.cell e.text

/-- The object that has the texts as its members, under their names. -/
def listJson (es : List Named) : JsonValue := .object (es.map fun e => (e.name, cellJson e.text))

end Named

end Defs

variable {g : Grid} {us : List Update} {p q : Position} {text : String}

/-! ### Updates are writes -/

theorem get?_empty (p : Position) : empty.get? p = none := rfl

theorem write_nil (g : Grid) : g.write [] = g := by
  rw [write, List.append_nil, ofLastTexts_entries]

/-- A cell has the text that is written to it unless that is blank, and the others keep theirs. -/
theorem get?_set (g : Grid) (p : Position) (text : String) (q : Position) :
    (g.set p text).get? q =
      if q = p then (some text).filter fun t => !Text.isBlankText t else g.get? q := by
  by_cases hq : q = p
  · rw [if_pos hq, hq, get?_set_self, Option.filter_some]
    cases Text.isBlankText text <;> rfl
  · rw [if_neg hq, get?_set_of_ne g hq]

/-- Writing one more text is writing it behind the others. -/
theorem write_concat (g : Grid) (es : List (Position × String)) (e : Position × String) :
    g.write (es ++ [e]) = (g.write es).set e.1 e.2 := by
  refine ext_get? fun q => ?_
  rw [get?_set, get?_write, get?_write, List.reverse_concat, List.lookup_cons]
  by_cases hq : q = e.1
  · rw [if_pos hq, beq_iff_eq.2 hq, Option.some_or]
  · rw [if_neg hq, beq_false_of_ne hq]

/-- Texts written one after the other are texts written at once. -/
theorem foldl_set (g : Grid) (es : List (Position × String)) :
    es.foldl (fun g e => g.set e.1 e.2) g = g.write es := by
  induction es using List.reverseRecOn with
  | nil => exact (write_nil g).symm
  | append_singleton es e ih => rw [List.foldl_concat, ih, write_concat]

theorem update_eq_set (g : Grid) (u : Update) : g.update u = g.set u.entry.1 u.entry.2 := by
  cases u with
  | set p text => rfl
  | erase p =>
    have hblank : Text.isBlankText "" = true := by decide
    show g.erase p = g.set p ""
    rw [Grid.set, dif_pos hblank]

theorem updated_eq_write (us : List Update) : updated us = empty.write (us.map Update.entry) := by
  rw [← foldl_set, List.foldl_map, updated]
  exact congrArg (fun f => us.foldl f empty) (funext fun g => funext fun u => update_eq_set g u)

/-! ### What updates leave -/

theorem Update.eq_set_of_entry {u : Update} (h : u.entry = (p, text))
    (hfilled : Text.isBlankText text = false) : u = .set p text := by
  cases u with
  | set q raw =>
    obtain ⟨rfl, rfl⟩ := Prod.mk.inj h
    rfl
  | erase q =>
    obtain ⟨-, rfl⟩ := Prod.mk.inj h
    exact absurd hfilled (by decide)

theorem Update.entry_fst (u : Update) : u.entry.1 = u.cell := by
  cases u <;> rfl

/-- After updates a cell has what the last of them for this cell leaves there. -/
theorem get?_updated_iff : (updated us).get? p = some text ↔ Leaves us p text := by
  rw [updated_eq_write, get?_write, get?_empty, Option.or_none, Option.filter_eq_some_iff,
    List.lookup_eq_some_iff, ← List.map_reverse, Bool.not_eq_eq_eq_not, Bool.not_true]
  constructor
  · rintro ⟨⟨entries, _, hsplit, hnone⟩, hfilled⟩
    -- the last update for a cell is the first one from the end
    obtain ⟨later, rest, hrest, rfl, htail⟩ := List.map_eq_append_iff.1 hsplit
    obtain ⟨u, before, rfl, hu, -⟩ := List.map_eq_cons_iff.1 htail
    rw [Update.eq_set_of_entry hu hfilled] at hrest
    refine ⟨before.reverse, later.reverse, ?_, hfilled, fun v hv => ?_⟩
    · rw [List.reverse_eq_append_iff.1 hrest, List.reverse_cons, List.append_assoc]
      rfl
    · have hne := hnone _ (List.mem_map_of_mem (List.mem_reverse.1 hv))
      rw [Update.entry_fst] at hne
      exact Ne.symm (bne_iff_ne.1 hne)
  · rintro ⟨before, later, rfl, hfilled, hlater⟩
    refine ⟨⟨later.reverse.map Update.entry, before.reverse.map Update.entry, ?_, ?_⟩, hfilled⟩
    · rw [List.reverse_append, List.reverse_cons, List.append_assoc, List.map_append]
      rfl
    · intro e he
      obtain ⟨u, hu, rfl⟩ := List.mem_map.1 he
      rw [Update.entry_fst]
      exact bne_iff_ne.2 (Ne.symm (hlater u (List.mem_reverse.1 hu)))

theorem mem_updated_iff {e : Position × String} :
    e ∈ (updated us).entries ↔ Leaves us e.1 e.2 := by
  rw [← get?_updated_iff, get?_eq_some_iff]

/-! ### Texts under names -/

section Names

variable {es : List Named}

theorem map_entry_map_set (es : List Named) :
    (es.map Named.set).map Update.entry = es.map Named.entry := by
  rw [List.map_map]
  rfl

theorem ofList_named (es : List Named) :
    ofList (es.map Named.entry) = updated (es.map Named.set) := by
  rw [updated_eq_write, map_entry_map_set, ← foldl_set]
  rfl

theorem ofLastTexts_named (es : List Named) :
    ofLastTexts (es.map Named.entry) = updated (es.map Named.set) := by
  rw [updated_eq_write, map_entry_map_set]
  rfl

/-- An object whose members are texts under names is read as the grid with these texts. -/
theorem parseJson_listJson {s : String} (h : (Named.listJson es).Written s.toList) :
    parseJson s = .ok (updated (es.map Named.set)) := by
  have hcells : cellsOfMembers (JsonTree.ofMembers (es.map fun e => (e.name, cellJson e.text))) =
      .ok (es.map fun e => (e.cell, e.text)) :=
    @cellsOfMembers_ofMembers _ Named.name Named.cell Named.text es fun e _ => e.parse_name
  rw [parseJson, JsonTree.parse_of_written ofJson h, Named.listJson, JsonTree.ofValue, ofJson]
  simp only [bind, Except.bind, hcells]
  exact congrArg Except.ok (ofLastTexts_named es)

theorem leaves_named_iff : Leaves (es.map Named.set) p text ↔
    ∃ before e later, es = before ++ e :: later ∧ e.cell = p ∧ e.text = text ∧
      Text.isBlankText text = false ∧ ∀ e' ∈ later, e'.cell ≠ p := by
  constructor
  · rintro ⟨_, _, hsplit, hfilled, hlater⟩
    obtain ⟨before, rest, rfl, rfl, htail⟩ := List.map_eq_append_iff.1 hsplit
    obtain ⟨e, later, rfl, he, rfl⟩ := List.map_eq_cons_iff.1 htail
    obtain ⟨hcell, htext⟩ := Update.set.inj he
    exact ⟨before, e, later, rfl, hcell, htext, hfilled,
      fun e' he' => hlater e'.set (List.mem_map_of_mem he')⟩
  · rintro ⟨before, e, later, rfl, rfl, rfl, hfilled, hlater⟩
    refine ⟨before.map Named.set, later.map Named.set, ?_, hfilled, List.forall_mem_map.2 hlater⟩
    rw [List.map_append, List.map_cons]
    rfl

end Names

/-- Texts under names that are written one after the other, collected, or read from a JSON object
with these members give one grid, in which a cell has its last text unless that is blank.  After any
updates the entries stand in reading order, each position at most once and none of them blank, and
they are what the last update of each cell leaves there. -/
theorem ways_to_build_agree :
    (∀ es : List Named,
      let g := updated (es.map Named.set)
      ofList (es.map Named.entry) = g ∧ ofLastTexts (es.map Named.entry) = g ∧
        (∀ s : String, (Named.listJson es).Written s.toList → parseJson s = .ok g) ∧
        ∀ p text, g.get? p = some text ↔
          ∃ before e later, es = before ++ e :: later ∧ e.cell = p ∧ e.text = text ∧
            Text.isBlankText text = false ∧ ∀ e' ∈ later, e'.cell ≠ p) ∧
      ∀ us : List Update,
        let g := updated us
        (g.entries.Pairwise fun a b => a.1.row < b.1.row ∨ a.1.row = b.1.row ∧ a.1.col < b.1.col) ∧
          (∀ e, e ∈ g.entries ↔ Leaves us e.1 e.2) ∧
          ∀ p text, g.get? p = some text ↔ Leaves us p text := by
  constructor
  · intro es g
    exact ⟨ofList_named es, ofLastTexts_named es, fun s h => parseJson_listJson h,
      fun p text => get?_updated_iff.trans leaves_named_iff⟩
  · intro us g
    exact ⟨g.ordered, fun e => mem_updated_iff, fun p text => get?_updated_iff⟩

/-- Texts of two cells, each under more than one name. -/
def spellings : List Named :=
  [⟨"A1", ⟨0, 0⟩, "x", by decide +kernel⟩, ⟨"a1", ⟨0, 0⟩, " ", by decide +kernel⟩,
    ⟨"b2", ⟨1, 1⟩, "z", by decide +kernel⟩, ⟨"A01", ⟨0, 0⟩, "y", by decide +kernel⟩,
    ⟨"B2", ⟨1, 1⟩, "", by decide +kernel⟩]

/-- The first cell has its last text, and the other one, whose last text is blank, has none. -/
theorem ways_to_build_agree_spellings :
    (Named.listJson spellings).Written (Named.listJson spellings).compact.toList ∧
      parseJson (Named.listJson spellings).compact = .ok (ofList (spellings.map Named.entry)) ∧
      (ofLastTexts (spellings.map Named.entry)).get? ⟨0, 0⟩ = some "y" ∧
      (ofLastTexts (spellings.map Named.entry)).get? ⟨1, 1⟩ = none := by
  obtain ⟨hlist, hlast, hread, hget⟩ := ways_to_build_agree.1 spellings
  have hwritten := JsonValue.written_compact (Named.listJson spellings)
  refine ⟨hwritten, hlist ▸ hread _ hwritten, ?_, ?_⟩
  · rw [hlast, hget]
    exact ⟨spellings.take 3, spellings[3], spellings.drop 4, rfl, rfl, rfl, by decide, by decide⟩
  · rw [hlast]
    decide +kernel

end Grid

end Spreadsheet
