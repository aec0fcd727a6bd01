import Spreadsheet.Address.Range

/-!
# Spreadsheet.Grid — the sparse map from positions to cell texts

A grid holds the raw text of every cell that is not blank: a list of entries in reading order, each
position at most once.  Writing a blank text removes the entry.  Two grids with the same texts are
equal.
-/

namespace Spreadsheet

/-- The texts of all cells that are not blank. -/
structure Grid where
  /-- The entries in reading order. -/
  entries : List (Position × String)
  ordered : entries.Pairwise fun a b => a.1 < b.1
  filled : ∀ e ∈ entries, Text.isBlankText e.2 = false
deriving DecidableEq

namespace Grid

/-- Puts an entry in its place, instead of one for the same position. -/
def put (p : Position) (text : String) : List (Position × String) → List (Position × String)
  | [] => [(p, text)]
  | e :: es =>
    if p < e.1 then (p, text) :: e :: es
    else if p = e.1 then (p, text) :: es
    else e :: put p text es

theorem eq_or_mem_of_mem_put {p : Position} {text : String} {es : List (Position × String)}
    {e : Position × String} (h : e ∈ put p text es) : e = (p, text) ∨ e ∈ es := by
  induction es with
  | nil => simpa [put] using h
  | cons a es ih =>
    rw [put] at h
    split at h
    · simpa using h
    · split at h
      · rcases List.mem_cons.1 h with h | h
        · exact .inl h
        · exact .inr (List.mem_cons_of_mem _ h)
      · rcases List.mem_cons.1 h with h | h
        · exact .inr (h ▸ List.mem_cons_self)
        · exact (ih h).imp id (List.mem_cons_of_mem _)

theorem ordered_put {p : Position} {text : String} {es : List (Position × String)}
    (h : es.Pairwise fun a b => a.1 < b.1) : (put p text es).Pairwise fun a b => a.1 < b.1 := by
  -- before the first entry, in its place, or behind it
  induction es with
  | nil => simp [put]
  | cons a es ih =>
    obtain ⟨ha, hes⟩ := List.pairwise_cons.1 h
    rw [put]
    split
    · rename_i hlt
      refine List.pairwise_cons.2 ⟨fun b hb => ?_, h⟩
      rcases List.mem_cons.1 hb with rfl | hb
      · exact hlt
      · exact Position.lt_trans hlt (ha b hb)
    · split
      · rename_i heq
        exact List.pairwise_cons.2 ⟨fun b hb => heq ▸ ha b hb, hes⟩
      · rename_i hlt hne
        refine List.pairwise_cons.2 ⟨fun b hb => ?_, ih hes⟩
        rcases eq_or_mem_of_mem_put hb with rfl | hb
        · exact Position.lt_of_not_lt hlt hne
        · exact ha b hb

/-- The grid without cells. -/
def empty : Grid := ⟨[], List.Pairwise.nil, by simp⟩

instance : Inhabited Grid := ⟨empty⟩

/-- The text of a cell, if it has one. -/
def get? (g : Grid) (p : Position) : Option String := g.entries.lookup p

/-- The text of a cell, empty if it has none. -/
def textAt (g : Grid) (p : Position) : String := (g.get? p).getD ""

/-- The grid without the cells that satisfy `drop`. -/
def without (g : Grid) (drop : Position → Bool) : Grid where
  entries := g.entries.filter fun e => !drop e.1
  ordered := g.ordered.filter _
  filled := fun e he => g.filled e (List.mem_filter.1 he).1

/-- The grid without the cell at `p`. -/
def erase (g : Grid) (p : Position) : Grid := g.without (· == p)

/-- The grid without the cells of a rectangle. -/
def eraseWithin (g : Grid) (b : Rect) : Grid := g.without b.contains

/-- Writes a cell.  A blank text removes it. -/
def set (g : Grid) (p : Position) (text : String) : Grid :=
  if h : Text.isBlankText text = true then g.erase p
  else
    { entries := put p text g.entries
      ordered := ordered_put g.ordered
      filled := fun e he => by
        rcases eq_or_mem_of_mem_put he with rfl | he
        · simpa using h
        · exact g.filled e he }

/-- Writes entries one after the other into an empty grid. -/
def ofList (es : List (Position × String)) : Grid := es.foldl (fun g e => g.set e.1 e.2) empty

/-- Puts an entry in its place, unless there is one for the same position. -/
def putNew (p : Position) (text : String) : List (Position × String) → List (Position × String)
  | [] => [(p, text)]
  | e :: es =>
    if p < e.1 then (p, text) :: e :: es
    else if p = e.1 then e :: es
    else e :: putNew p text es

theorem eq_or_mem_of_mem_putNew {p : Position} {text : String} {es : List (Position × String)}
    {e : Position × String} (h : e ∈ putNew p text es) : e = (p, text) ∨ e ∈ es := by
  induction es with
  | nil => simpa [putNew] using h
  | cons a es ih =>
    rw [putNew] at h
    split at h
    · simpa using h
    · split at h
      · exact .inr h
      · rcases List.mem_cons.1 h with h | h
        · exact .inr (h ▸ List.mem_cons_self)
        · exact (ih h).imp id (List.mem_cons_of_mem _)

theorem ordered_putNew {p : Position} {text : String} {es : List (Position × String)}
    (h : es.Pairwise fun a b => a.1 < b.1) :
    (putNew p text es).Pairwise fun a b => a.1 < b.1 := by
  induction es with
  | nil => simp [putNew]
  | cons a es ih =>
    obtain ⟨ha, hes⟩ := List.pairwise_cons.1 h
    rw [putNew]
    split
    · rename_i hlt
      refine List.pairwise_cons.2 ⟨fun b hb => ?_, h⟩
      rcases List.mem_cons.1 hb with rfl | hb
      · exact hlt
      · exact Position.lt_trans hlt (ha b hb)
    · split
      · exact h
      · rename_i hlt hne
        refine List.pairwise_cons.2 ⟨fun b hb => ?_, ih hes⟩
        rcases eq_or_mem_of_mem_putNew hb with rfl | hb
        · exact Position.lt_of_not_lt hlt hne
        · exact ha b hb

/-- The last texts of all positions, in reading order.  Read from its end, a list in reading order
is put together without a search. -/
def lastTexts (es : List (Position × String)) : List (Position × String) :=
  es.foldr (fun e acc => putNew e.1 e.2 acc) []

theorem ordered_lastTexts (es : List (Position × String)) :
    (lastTexts es).Pairwise fun a b => a.1 < b.1 := by
  induction es with
  | nil => exact List.Pairwise.nil
  | cons e es ih => exact ordered_putNew ih

/-- The grid that holds the last text of every position, blank ones left out. -/
def ofLastTexts (es : List (Position × String)) : Grid where
  entries := (lastTexts es).filter fun e => !Text.isBlankText e.2
  ordered := (ordered_lastTexts es).filter _
  filled := fun e he => by simpa using (List.mem_filter.1 he).2

/-- Writes entries one after the other into a grid. -/
def write (g : Grid) (es : List (Position × String)) : Grid := ofLastTexts (g.entries ++ es)

/-- Number of cells that are not blank. -/
def size (g : Grid) : Nat := g.entries.length

/-- Whether every cell is blank. -/
def isEmpty (g : Grid) : Bool := g.entries.isEmpty

/-- The positions of the cells in a rectangle that are not blank, in reading order. -/
def positionsIn (g : Grid) (b : Rect) : List Position := (g.entries.map Prod.fst).filter b.contains

/-- The corner with the largest row and the largest column in use, of a grid that has cells. -/
def extent? (g : Grid) : Option Position :=
  g.entries.foldl (fun corner e => match corner with
    | none => some e.1
    | some c => some ⟨max c.row e.1.row, max c.col e.1.col⟩) none

end Grid

end Spreadsheet
