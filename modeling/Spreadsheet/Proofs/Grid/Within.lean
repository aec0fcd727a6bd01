import Mathlib.Tactic.SplitIfs
import Spreadsheet.Document

/-!
# Spreadsheet.Proofs.Grid.Within — cells that lie on the sheet

Which entries a grid has after each operation, and that writing, clearing and loading keep every
entry inside the dimensions.  Dimensions are ordered by both of their numbers; what lies on a sheet
lies on every larger one.
-/

namespace Spreadsheet

namespace Dimensions

instance : LE Dimensions := ⟨fun d d' => d.rows ≤ d'.rows ∧ d.cols ≤ d'.cols⟩

theorem le_iff {d d' : Dimensions} : d ≤ d' ↔ d.rows ≤ d'.rows ∧ d.cols ≤ d'.cols := Iff.rfl

theorem le_refl (d : Dimensions) : d ≤ d := ⟨Nat.le_refl _, Nat.le_refl _⟩

theorem le_trans {d d' d'' : Dimensions} (h : d ≤ d') (h' : d' ≤ d'') : d ≤ d'' :=
  ⟨Nat.le_trans h.1 h'.1, Nat.le_trans h.2 h'.2⟩

theorem contains_mono {d d' : Dimensions} {p : Position} (hd : d ≤ d') (h : d.contains p = true) :
    d'.contains p = true := by
  rw [le_iff] at hd
  rw [contains_iff] at h ⊢
  omega

/-- The numbers of rows and columns are words. -/
def AreWords (d : Dimensions) : Prop := d.rows < Word.size ∧ d.cols < Word.size

theorem le_moreRows {d : Dimensions} (h : d.AreWords) (n : Nat) : d ≤ d.moreRows n := by
  have := h.1
  rw [le_iff]
  simp only [moreRows, Word.addSaturating]
  omega

theorem le_moreCols {d : Dimensions} (h : d.AreWords) (n : Nat) : d ≤ d.moreCols n := by
  have := h.2
  rw [le_iff]
  simp only [moreCols, Word.addSaturating]
  omega

theorem areWords_moreRows {d : Dimensions} (h : d.AreWords) (n : Nat) : (d.moreRows n).AreWords := by
  have hmin : min (d.rows + n) (Word.size - 1) ≤ Word.size - 1 := Nat.min_le_right _ _
  exact ⟨Nat.lt_of_le_of_lt hmin (by decide), h.2⟩

theorem areWords_moreCols {d : Dimensions} (h : d.AreWords) (n : Nat) : (d.moreCols n).AreWords := by
  have hmin : min (d.cols + n) (Word.size - 1) ≤ Word.size - 1 := Nat.min_le_right _ _
  exact ⟨h.1, Nat.lt_of_le_of_lt hmin (by decide)⟩

theorem le_including (d : Dimensions) (p : Position) : d ≤ d.including p :=
  ⟨Nat.le_max_left _ _, Nat.le_max_left _ _⟩

theorem areWords_including {d : Dimensions} (h : d.AreWords) (p : Position) :
    (d.including p).AreWords :=
  ⟨Nat.max_lt.2 ⟨h.1, Nat.mod_lt _ (by decide)⟩, Nat.max_lt.2 ⟨h.2, Nat.mod_lt _ (by decide)⟩⟩

end Dimensions

/-- A position has an id if the numbers that count its row and its column from one are words. -/
def Position.HasId (p : Position) : Prop := p.row + 1 < Word.size ∧ p.col + 1 < Word.size

theorem Dimensions.including?_eq_some_iff {d d' : Dimensions} {p : Position} :
    d.including? p = some d' ↔ p.HasId ∧ d.including p = d' := by
  simp [including?, Position.HasId, Option.isSome_iff_exists]

theorem Dimensions.contains_including {d : Dimensions} {p q : Position} (hp : p.HasId)
    (h : q.row ≤ p.row ∧ q.col ≤ p.col) : (d.including p).contains q = true := by
  rw [contains_iff]
  simp only [including, Word.add_eq hp.1, Word.add_eq hp.2]
  omega

theorem Dimensions.hasId_of_contains {d : Dimensions} {p : Position} (hd : d.AreWords)
    (h : d.contains p = true) : p.HasId := by
  obtain ⟨hr, hc⟩ := hd
  obtain ⟨hpr, hpc⟩ := contains_iff.1 h
  constructor <;> omega

namespace Grid

/-! ### The entries of a grid -/

theorem mem_of_mem_without {g : Grid} {drop : Position → Bool} {e : Position × String}
    (h : e ∈ (g.without drop).entries) : e ∈ g.entries :=
  (List.mem_filter.1 h).1

theorem eq_or_mem_of_mem_set {g : Grid} {p : Position} {text : String} {e : Position × String}
    (h : e ∈ (g.set p text).entries) : e = (p, text) ∨ e ∈ g.entries := by
  unfold set at h
  split_ifs at h
  · exact .inr (mem_of_mem_without h)
  · exact eq_or_mem_of_mem_put h

theorem mem_of_mem_lastTexts {es : List (Position × String)} {e : Position × String}
    (h : e ∈ lastTexts es) : e ∈ es := by
  induction es with
  | nil => cases h
  | cons a es ih =>
    rcases eq_or_mem_of_mem_putNew h with rfl | h
    · exact List.mem_cons_self
    · exact List.mem_cons_of_mem _ (ih h)

theorem mem_of_mem_ofLastTexts {es : List (Position × String)} {e : Position × String}
    (h : e ∈ (ofLastTexts es).entries) : e ∈ es :=
  mem_of_mem_lastTexts (List.mem_filter.1 h).1

theorem mem_of_mem_write {g : Grid} {es : List (Position × String)} {e : Position × String}
    (h : e ∈ (g.write es).entries) : e ∈ g.entries ∨ e ∈ es :=
  List.mem_append.1 (mem_of_mem_ofLastTexts h)

/-! ### On the sheet -/

/-- Every cell of the grid lies on the sheet. -/
def Within (g : Grid) (d : Dimensions) : Prop := ∀ e ∈ g.entries, d.contains e.1 = true

variable {g : Grid} {d d' : Dimensions}

theorem within_empty (d : Dimensions) : empty.Within d := fun e he => by cases he

theorem Within.mono (h : g.Within d) (hd : d ≤ d') : g.Within d' :=
  fun e he => Dimensions.contains_mono hd (h e he)

theorem Within.without (h : g.Within d) (drop : Position → Bool) : (g.without drop).Within d :=
  fun e he => h e (mem_of_mem_without he)

theorem Within.set (h : g.Within d) {p : Position} (hp : d.contains p = true) (text : String) :
    (g.set p text).Within d := by
  intro e he
  rcases eq_or_mem_of_mem_set he with rfl | he
  · exact hp
  · exact h e he

theorem Within.write (h : g.Within d) {es : List (Position × String)}
    (hes : ∀ e ∈ es, d.contains e.1 = true) : (g.write es).Within d :=
  fun e he => (mem_of_mem_write he).elim (h e) (hes e)

/-! ### The extent of a grid -/

/-- The corner that covers another one and a position. -/
def cover (corner : Option Position) (e : Position × String) : Option Position :=
  match corner with
  | none => some e.1
  | some c => some ⟨max c.row e.1.row, max c.col e.1.col⟩

theorem extent?_eq (g : Grid) : g.extent? = g.entries.foldl cover none := rfl

/-- The corner covers every entry, and it has an id if they all have one. -/
theorem foldl_cover (es : List (Position × String)) (c : Position) :
    ∃ r, es.foldl cover (some c) = some r ∧ (c.row ≤ r.row ∧ c.col ≤ r.col) ∧
      (∀ e ∈ es, e.1.row ≤ r.row ∧ e.1.col ≤ r.col) ∧
      (c.HasId → (∀ e ∈ es, e.1.HasId) → r.HasId) := by
  induction es generalizing c with
  | nil => exact ⟨c, rfl, ⟨Nat.le_refl _, Nat.le_refl _⟩, by simp, fun hc _ => hc⟩
  | cons a es ih =>
    obtain ⟨r, hr, hcr, hes, hid⟩ := ih ⟨max c.row a.1.row, max c.col a.1.col⟩
    simp only at hcr
    refine ⟨r, hr, ⟨by omega, by omega⟩, ?_, ?_⟩
    · intro e he
      rcases List.mem_cons.1 he with rfl | he
      · exact ⟨by omega, by omega⟩
      · exact hes e he
    · intro hc hall
      have ha := hall a List.mem_cons_self
      refine hid ⟨?_, ?_⟩ fun e he => hall e (List.mem_cons_of_mem _ he)
      · exact (Nat.add_max_add_right _ _ _).symm ▸ Nat.max_lt.2 ⟨hc.1, ha.1⟩
      · exact (Nat.add_max_add_right _ _ _).symm ▸ Nat.max_lt.2 ⟨hc.2, ha.2⟩

/-- The corner of a grid that has cells. -/
theorem extent?_spec {g : Grid} {r : Position} (h : g.extent? = some r) :
    (∀ e ∈ g.entries, e.1.row ≤ r.row ∧ e.1.col ≤ r.col) ∧
      ((∀ e ∈ g.entries, e.1.HasId) → r.HasId) := by
  rw [extent?_eq] at h
  cases hes : g.entries with
  | nil => simp [hes] at h
  | cons a es =>
    rw [hes] at h
    obtain ⟨r', hr', ha, hall, hid⟩ := foldl_cover es a.1
    obtain rfl : r' = r := Option.some.inj (hr'.symm.trans h)
    constructor
    · intro e he
      rcases List.mem_cons.1 he with rfl | he
      · exact ha
      · exact hall e he
    · intro hids
      exact hid (hids a List.mem_cons_self) fun e he => hids e (List.mem_cons_of_mem _ he)

theorem extent?_eq_none {g : Grid} (h : g.extent? = none) : g.entries = [] := by
  rw [extent?_eq] at h
  cases hes : g.entries with
  | nil => rfl
  | cons a es =>
    rw [hes] at h
    obtain ⟨r, hr, -⟩ := foldl_cover es a.1
    exact absurd (hr.symm.trans h) (by simp)

/-- The corner that covers positions of a sheet lies on it. -/
theorem contains_foldl_cover {d : Dimensions} {es : List (Position × String)} {c : Position}
    (hc : d.contains c = true) (hes : ∀ e ∈ es, d.contains e.1 = true) :
    ∃ r, es.foldl cover (some c) = some r ∧ d.contains r = true := by
  induction es generalizing c with
  | nil => exact ⟨c, rfl, hc⟩
  | cons e es ih =>
    obtain ⟨he, hes⟩ := List.forall_mem_cons.1 hes
    refine ih ?_ hes
    rw [Dimensions.contains_iff] at hc he ⊢
    exact ⟨Nat.max_lt.2 ⟨hc.1, he.1⟩, Nat.max_lt.2 ⟨hc.2, he.2⟩⟩

theorem Within.contains_extent {g : Grid} {d : Dimensions} {corner : Position} (h : g.Within d)
    (hcorner : g.extent? = some corner) : d.contains corner = true := by
  rw [extent?_eq] at hcorner
  cases hes : g.entries with
  | nil =>
    rw [hes] at hcorner
    cases hcorner
  | cons e es =>
    rw [Within, hes] at h
    obtain ⟨he, hrest⟩ := List.forall_mem_cons.1 h
    obtain ⟨r, hr, hcontains⟩ := contains_foldl_cover he hrest
    rw [hes, List.foldl_cons] at hcorner
    exact Option.some.inj (hr.symm.trans hcorner) ▸ hcontains

end Grid

/-! ### Documents -/

namespace Document

theorem areWords_dims {s : Document} (hr : s.rows < Word.size) (hc : s.cols < Word.size) :
    s.dims.AreWords := by
  have hleast : (Dimensions.atLeastOne s.rows s.cols).AreWords :=
    ⟨Nat.max_lt.2 ⟨hr, by decide⟩, Nat.max_lt.2 ⟨hc, by decide⟩⟩
  unfold dims
  simp only
  split
  · exact Dimensions.areWords_including hleast _
  · exact hleast

/-- A document whose numbers are words has all its cells on the sheet exactly if each of them has an
id. -/
theorem within_dims_iff {s : Document} (hr : s.rows < Word.size) (hc : s.cols < Word.size) :
    s.grid.Within s.dims ↔ ∀ e ∈ s.grid.entries, e.1.HasId := by
  constructor
  · intro h e he
    exact Dimensions.hasId_of_contains (areWords_dims hr hc) (h e he)
  · intro h e he
    unfold dims
    cases hx : s.grid.extent? with
    | none => simp [Grid.extent?_eq_none hx] at he
    | some corner =>
      obtain ⟨hcover, hid⟩ := Grid.extent?_spec hx
      exact Dimensions.contains_including (hid h) (hcover e he)

/-- The size of a document is in words exactly if every cell has an id; then it is the size. -/
theorem dims?_eq_some_iff {s : Document} {d : Dimensions} :
    s.dims? = some d ↔ (∀ e ∈ s.grid.entries, e.1.HasId) ∧ s.dims = d := by
  unfold dims? dims
  cases hx : s.grid.extent? with
  | none => simp [Grid.extent?_eq_none hx]
  | some corner =>
    obtain ⟨hcover, hid⟩ := Grid.extent?_spec hx
    -- no cell is beyond the corner, which has an id if they all have
    have hids : corner.HasId ↔ ∀ e ∈ s.grid.entries, e.1.HasId :=
      ⟨fun hc e he => ⟨Nat.lt_of_le_of_lt (Nat.succ_le_succ (hcover e he).1) hc.1,
        Nat.lt_of_le_of_lt (Nat.succ_le_succ (hcover e he).2) hc.2⟩, hid⟩
    simp only [← hids, Dimensions.including?_eq_some_iff]

end Document

end Spreadsheet
