import Mathlib.Data.List.Sort
import Spreadsheet.Dimensions
import Spreadsheet.Grid

/-!
# Spreadsheet.Proofs.Grid.Entries — a grid is the set of its entries

Entries stand in reading order, so two grids with the same entries are equal and the text of a
position is the one entry it has.  A list that is in reading order already is kept as it stands when
the last text of each position is taken.  After entries have been written into a grid, a cell has
the last of its texts among them, and where they have none the text it had.
-/

namespace Spreadsheet

namespace Grid

theorem eq_of_entries {g g' : Grid} (h : g.entries = g'.entries) : g = g' := by
  cases g
  cases g'
  cases h
  rfl

/-- Two grids with the same entries are equal. -/
theorem ext_mem {g g' : Grid} (h : ∀ e, e ∈ g.entries ↔ e ∈ g'.entries) : g = g' := by
  have hanti : Std.Antisymm fun a b : Position × String => a.1 < b.1 :=
    ⟨fun a _ h h' => absurd (Position.lt_trans h h') (Position.not_lt_self a.1)⟩
  have hirrefl : Std.Irrefl fun a b : Position × String => a.1 < b.1 :=
    ⟨fun a => Position.not_lt_self a.1⟩
  exact eq_of_entries (g.ordered.eq_of_mem_iff g'.ordered fun {e} => h e)

theorem get?_eq_some_iff {g : Grid} {p : Position} {text : String} :
    g.get? p = some text ↔ (p, text) ∈ g.entries := by
  rw [get?, List.lookup_eq_some_iff]
  constructor
  · rintro ⟨before, after, hentries, -⟩
    rw [hentries]
    exact List.mem_append_right _ List.mem_cons_self
  · intro h
    obtain ⟨before, after, hentries⟩ := List.append_of_mem h
    have hordered := g.ordered
    rw [hentries, List.pairwise_append] at hordered
    refine ⟨before, after, hentries, fun e he => bne_iff_ne.2 ?_⟩
    rintro rfl
    exact Position.not_lt_self e.1 (hordered.2.2 e he (e.1, text) List.mem_cons_self)

/-- Two grids with the same texts are equal. -/
theorem ext_get? {g g' : Grid} (h : ∀ p, g.get? p = g'.get? p) : g = g' := by
  refine ext_mem fun e => ?_
  exact get?_eq_some_iff.symm.trans ((h e.1) ▸ get?_eq_some_iff)

/-- The texts of a grid that are not blank are its entries. -/
theorem mem_entries_iff {g : Grid} {p : Position} {text : String} :
    (p, text) ∈ g.entries ↔ g.textAt p = text ∧ Text.isBlankText text = false := by
  rw [← get?_eq_some_iff, textAt]
  constructor
  · intro h
    exact ⟨by rw [h]; rfl, g.filled _ (get?_eq_some_iff.1 h)⟩
  · rintro ⟨htext, hfilled⟩
    cases hget : g.get? p with
    | none =>
      rw [hget] at htext
      subst htext
      exact absurd hfilled (by decide)
    | some raw =>
      rw [hget] at htext
      exact congrArg some htext

/-! ### The last text of each position -/

theorem lastTexts_of_ordered {es : List (Position × String)}
    (h : es.Pairwise fun a b => a.1 < b.1) : lastTexts es = es := by
  induction es with
  | nil => rfl
  | cons e es ih =>
    obtain ⟨he, hes⟩ := List.pairwise_cons.1 h
    have hcons : lastTexts (e :: es) = putNew e.1 e.2 (lastTexts es) := rfl
    rw [hcons, ih hes]
    cases es with
    | nil => rfl
    | cons a es => rw [putNew, if_pos (he a List.mem_cons_self)]

theorem entries_ofLastTexts {es : List (Position × String)}
    (h : es.Pairwise fun a b => a.1 < b.1) :
    (ofLastTexts es).entries = es.filter fun e => !Text.isBlankText e.2 := by
  show (lastTexts es).filter _ = _
  rw [lastTexts_of_ordered h]

/-- The entries of a grid make the grid. -/
theorem ofLastTexts_entries (g : Grid) : ofLastTexts g.entries = g := by
  refine eq_of_entries ?_
  rw [entries_ofLastTexts g.ordered, List.filter_eq_self]
  intro e he
  rw [g.filled e he]
  rfl

theorem mem_putNew {p : Position} {text : String} {es : List (Position × String)}
    (h : es.Pairwise fun a b => a.1 < b.1) {e : Position × String} :
    e ∈ putNew p text es ↔ e ∈ es ∨ e = (p, text) ∧ ∀ a ∈ es, a.1 ≠ p := by
  induction es with
  | nil => simp [putNew]
  | cons a es ih =>
    obtain ⟨ha, hes⟩ := List.pairwise_cons.1 h
    rw [putNew]
    split_ifs with hlt heq
    · have hne : ∀ b ∈ a :: es, b.1 ≠ p := by
        rintro b hb rfl
        rcases List.mem_cons.1 hb with rfl | hb
        · exact Position.not_lt_self b.1 hlt
        · exact Position.not_lt_self b.1 (Position.lt_trans hlt (ha b hb))
      rw [List.mem_cons, or_comm, and_iff_left hne]
    · refine (or_iff_left ?_).symm
      rintro ⟨-, hne⟩
      exact hne a List.mem_cons_self heq.symm
    · rw [List.mem_cons, List.mem_cons, ih hes, List.forall_mem_cons, or_assoc,
        and_iff_right (Ne.symm heq)]

theorem lookup_reverse_cons (e : Position × String) (es : List (Position × String)) (p : Position) :
    (e :: es).reverse.lookup p =
      (es.reverse.lookup p).or (if p = e.1 then some e.2 else none) := by
  rw [List.reverse_cons, List.lookup_append, List.lookup_cons, List.lookup_nil]
  by_cases hp : p = e.1
  · rw [if_pos hp, beq_iff_eq.2 hp]
  · rw [if_neg hp, beq_false_of_ne hp]

theorem mem_lastTexts {es : List (Position × String)} {p : Position} {text : String} :
    (p, text) ∈ lastTexts es ↔ es.reverse.lookup p = some text := by
  induction es generalizing p text with
  | nil => simp [lastTexts]
  | cons e es ih =>
    have hcons : lastTexts (e :: es) = putNew e.1 e.2 (lastTexts es) := rfl
    -- an earlier text counts only if none comes later for its position
    have hnone : (∀ a ∈ lastTexts es, a.1 ≠ e.1) ↔ es.reverse.lookup e.1 = none := by
      rw [Option.eq_none_iff_forall_ne_some]
      constructor
      · intro h text' htext
        exact h (e.1, text') (ih.2 htext) rfl
      · rintro h a ha hae
        exact h a.2 (ih.1 (hae ▸ ha))
    rw [hcons, mem_putNew (ordered_lastTexts es), ih, hnone, lookup_reverse_cons,
      Option.or_eq_some_iff]
    refine or_congr Iff.rfl ?_
    by_cases hp : p = e.1
    · subst hp
      rw [if_pos rfl, and_comm, Prod.mk.injEq, and_iff_right rfl, Option.some.injEq,
        eq_comm (a := text)]
    · rw [if_neg hp, Prod.mk.injEq]
      simp [hp]

theorem get?_ofLastTexts (es : List (Position × String)) (p : Position) :
    (ofLastTexts es).get? p = (es.reverse.lookup p).filter fun t => !Text.isBlankText t := by
  refine Option.ext fun text => ?_
  rw [get?_eq_some_iff, ofLastTexts, List.mem_filter, mem_lastTexts, Option.filter_eq_some_iff]

theorem lookup_reverse_entries (g : Grid) (p : Position) :
    g.entries.reverse.lookup p = g.get? p := by
  refine Option.ext fun text => ?_
  rw [← mem_lastTexts, lastTexts_of_ordered g.ordered, get?_eq_some_iff]

/-- Of several texts that are written to one cell the last one counts. -/
theorem get?_write (g : Grid) (es : List (Position × String)) (p : Position) :
    (g.write es).get? p =
      ((es.reverse.lookup p).or (g.get? p)).filter fun t => !Text.isBlankText t := by
  rw [write, get?_ofLastTexts, List.reverse_append, List.lookup_append, lookup_reverse_entries]

section Write

variable {g : Grid} {es : List (Position × String)} {p : Position}

theorem get?_write_of_not_mem (h : ∀ e ∈ es, e.1 ≠ p) : (g.write es).get? p = g.get? p := by
  have hnone : es.reverse.lookup p = none :=
    List.lookup_eq_none_iff.2 fun e he => bne_iff_ne.2 (h e (List.mem_reverse.1 he)).symm
  rw [get?_write, hnone, Option.none_or]
  cases hget : g.get? p with
  | none => rfl
  | some text =>
    have hfilled := g.filled _ (get?_eq_some_iff.1 hget)
    rw [Option.filter_some, hfilled]
    rfl

theorem get?_write_of_mem {text : String} (hmem : (p, text) ∈ es)
    (h : ∀ e ∈ es, e.1 = p → e.2 = text) :
    (g.write es).get? p = if Text.isBlankText text = true then none else some text := by
  have hsome : es.reverse.lookup p = some text := by
    cases hlookup : es.reverse.lookup p with
    | none =>
      have hne := List.lookup_eq_none_iff.1 hlookup _ (List.mem_reverse.2 hmem)
      exact absurd rfl (bne_iff_ne.1 hne)
    | some text' =>
      obtain ⟨before, after, hes, -⟩ := List.lookup_eq_some_iff.1 hlookup
      have hlast : (p, text') ∈ es.reverse := hes ▸ List.mem_append_right _ List.mem_cons_self
      exact congrArg some (h _ (List.mem_reverse.1 hlast) rfl)
  rw [get?_write, hsome, Option.some_or, Option.filter_some]
  cases Text.isBlankText text <;> rfl

end Write

/-! ### Writing one cell -/

section Set

variable {p q : Position} {text : String}

theorem lookup_put_of_ne (h : q ≠ p) (es : List (Position × String)) :
    (put p text es).lookup q = es.lookup q := by
  have hp : (q == p) = false := beq_false_of_ne h
  induction es with
  | nil => rw [put, List.lookup_cons, hp]
  | cons e es ih =>
    rw [put]
    split_ifs with hlt heq
    · rw [List.lookup_cons, hp]
    · rw [List.lookup_cons, hp, List.lookup_cons, ← heq, hp]
    · rw [List.lookup_cons, List.lookup_cons, ih]

theorem lookup_put_self (p : Position) (text : String) (es : List (Position × String)) :
    (put p text es).lookup p = some text := by
  induction es with
  | nil => rw [put, List.lookup_cons_self]
  | cons e es ih =>
    rw [put]
    split_ifs with hlt heq
    · rw [List.lookup_cons_self]
    · rw [List.lookup_cons_self]
    · rw [List.lookup_cons, beq_false_of_ne heq, ih]

theorem get?_without (g : Grid) (drop : Position → Bool) (p : Position) :
    (g.without drop).get? p = if drop p = true then none else g.get? p := by
  refine Option.ext fun raw => ?_
  rw [get?_eq_some_iff, without, List.mem_filter, ← get?_eq_some_iff]
  cases drop p <;> simp

theorem get?_erase_of_ne (g : Grid) (h : q ≠ p) : (g.erase p).get? q = g.get? q := by
  rw [erase, get?_without, if_neg (by simpa using h)]

/-- Writing a cell leaves the others as they are. -/
theorem get?_set_of_ne (g : Grid) (h : q ≠ p) : (g.set p text).get? q = g.get? q := by
  rw [set]
  split
  · exact get?_erase_of_ne g h
  · exact lookup_put_of_ne h g.entries

/-- A cell has the text that is written to it, or nothing if that is blank. -/
theorem get?_set_self (g : Grid) (p : Position) (text : String) :
    (g.set p text).get? p = if Text.isBlankText text = true then none else some text := by
  rw [set]
  split
  · rw [erase, get?_without, if_pos (beq_self_eq_true p)]
  · exact lookup_put_self p text g.entries

end Set

/-! ### The part of a grid that lies on the sheet -/

/-- The grid with the cells that lie on the sheet. -/
def onSheet (g : Grid) (d : Dimensions) : Grid := g.without fun p => !d.contains p

theorem mem_onSheet {g : Grid} {d : Dimensions} {e : Position × String} :
    e ∈ (g.onSheet d).entries ↔ e ∈ g.entries ∧ d.contains e.1 = true := by
  rw [onSheet, without, List.mem_filter, Bool.not_not]

end Grid

end Spreadsheet
