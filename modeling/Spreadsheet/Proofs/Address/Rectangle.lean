import Mathlib.Data.List.Nodup
import Spreadsheet.Address.Range

/-!
# Spreadsheet.Proofs.Address.Rectangle — the cells of a rectangle, one after the other

Row by row and from left to right, a rectangle lists its cells in reading order, so that none comes
up twice, and these are the cells between its edges.  There are as many as its rows times its columns,
where both can be told: a rectangle with all the rows that words can number has one row more than a
word can tell.  Two ranges span one rectangle exactly if they have the same corners, however turned.
-/

namespace Spreadsheet

namespace Rect

variable {b : Rect} {p : Position}

theorem contains_iff : b.contains p = true ↔
    (b.top ≤ p.row ∧ p.row ≤ b.bottom) ∧ b.left ≤ p.col ∧ p.col ≤ b.right := by
  simp only [contains, Bool.and_eq_true, decide_eq_true_eq, and_assoc]

theorem mem_positions : p ∈ b.positions ↔ b.contains p = true := by
  obtain ⟨row, col⟩ := p
  simp only [positions, rows, cols, contains, List.mem_flatMap, List.mem_map, List.mem_range'_1,
    Position.mk.injEq, Bool.and_eq_true, decide_eq_true_eq]
  constructor
  · rintro ⟨r, hr, c, hc, rfl, rfl⟩
    omega
  · intro h
    exact ⟨row, by omega, col, by omega, rfl, rfl⟩

theorem positions_ordered (b : Rect) : b.positions.Pairwise (· < ·) := by
  rw [positions, List.pairwise_flatMap]
  constructor
  · intro row _
    rw [List.pairwise_map]
    refine (List.pairwise_lt_range' ..).imp fun {c c'} h => ?_
    exact .inr ⟨rfl, h⟩
  · refine (List.pairwise_lt_range' ..).imp fun {r r'} h => ?_
    intro p hp q hq
    obtain ⟨c, -, rfl⟩ := List.mem_map.1 hp
    obtain ⟨c', -, rfl⟩ := List.mem_map.1 hq
    exact .inl h

theorem positions_nodup (b : Rect) : b.positions.Nodup := by
  refine b.positions_ordered.imp fun {p q} h => ?_
  rintro rfl
  exact Position.not_lt_self p h

theorem count_positions (b : Rect) (p : Position) :
    b.positions.count p = if b.contains p = true then 1 else 0 := by
  split
  · next h => exact List.count_eq_one_of_mem b.positions_nodup (mem_positions.2 h)
  · next h => exact List.count_eq_zero.2 fun hmem => h (mem_positions.1 hmem)

theorem length_positions (b : Rect) :
    b.positions.length = (b.bottom + 1 - b.top) * (b.right + 1 - b.left) := by
  rw [positions, List.length_flatMap]
  simp only [List.length_map, rows, cols, List.length_range', List.map_const', List.sum_replicate_nat]

theorem height?_eq_some_iff {n : Nat} :
    b.height? = some n ↔ b.bottom - b.top + 1 < Word.size ∧ b.bottom - b.top + 1 = n :=
  Word.add?_eq_some_iff

theorem width?_eq_some_iff {n : Nat} :
    b.width? = some n ↔ b.right - b.left + 1 < Word.size ∧ b.right - b.left + 1 = n :=
  Word.add?_eq_some_iff

end Rect

namespace Range

variable {r : Range} {p : Position}

theorem contains_iff : r.contains p = true ↔
    (min r.start.row r.stop.row ≤ p.row ∧ p.row ≤ max r.start.row r.stop.row) ∧
      min r.start.col r.stop.col ≤ p.col ∧ p.col ≤ max r.start.col r.stop.col :=
  Rect.contains_iff

theorem rect_ordered (r : Range) : r.rect.top ≤ r.rect.bottom ∧ r.rect.left ≤ r.rect.right := by
  simp only [rect]
  omega

/-- The ranges between two opposite corners of the same rectangle: the corners as given, exchanged,
and the other two in both orders. -/
def turned (r : Range) : List Range :=
  [r, ⟨⟨r.start.row, r.stop.col⟩, ⟨r.stop.row, r.start.col⟩⟩,
    ⟨⟨r.stop.row, r.start.col⟩, ⟨r.start.row, r.stop.col⟩⟩, ⟨r.stop, r.start⟩]

/-- The least and the greatest of two numbers tell the two, but not which was first. -/
theorem min_max_eq_iff (m n m' n' : Nat) :
    min m' n' = min m n ∧ max m' n' = max m n ↔ m' = m ∧ n' = n ∨ m' = n ∧ n' = m := by
  omega

theorem rect_eq_iff {r' : Range} : r'.rect = r.rect ↔ r' ∈ r.turned := by
  obtain ⟨⟨row, col⟩, ⟨row', col'⟩⟩ := r
  obtain ⟨⟨srow, scol⟩, ⟨trow, tcol⟩⟩ := r'
  have hrows := min_max_eq_iff row row' srow trow
  have hcols := min_max_eq_iff col col' scol tcol
  simp only [rect, turned, List.mem_cons, List.not_mem_nil, or_false, Rect.mk.injEq, Range.mk.injEq,
    Position.mk.injEq]
  rw [← and_assoc, hrows, hcols]
  constructor
  · rintro ⟨⟨rfl, rfl⟩ | ⟨rfl, rfl⟩, ⟨rfl, rfl⟩ | ⟨rfl, rfl⟩⟩ <;> simp
  · rintro (⟨⟨rfl, rfl⟩, rfl, rfl⟩ | ⟨⟨rfl, rfl⟩, rfl, rfl⟩ | ⟨⟨rfl, rfl⟩, rfl, rfl⟩ |
      ⟨⟨rfl, rfl⟩, rfl, rfl⟩) <;> simp

theorem length_positions {height width : Nat} (hheight : r.rect.height? = some height)
    (hwidth : r.rect.width? = some width) : r.rect.positions.length = height * width := by
  obtain ⟨htop, hleft⟩ := r.rect_ordered
  obtain ⟨-, rfl⟩ := Rect.height?_eq_some_iff.1 hheight
  obtain ⟨-, rfl⟩ := Rect.width?_eq_some_iff.1 hwidth
  rw [Rect.length_positions, Nat.succ_sub htop, Nat.succ_sub hleft]

/-- A side between two numbers, both with a successor that is a word, can be counted. -/
theorem side_lt {m n : Nat} (hm : m + 1 < Word.size) (hn : n + 1 < Word.size) :
    max m n - min m n + 1 < Word.size := by
  omega

/-- The cells of a range are listed once each and no others, row by row and from left to right.
There are height times width of them, where these can be told.  A side cannot be told exactly if it
has more lines than a word can tell, and that is so of no range whose corners have ids.  The rectangle
is the same for the four ways to give it by opposite corners, and for no other range, and so are the
list and the cells that are contained. -/
theorem positions_enumerate (r : Range) :
    (∀ p, r.rect.positions.count p = if r.contains p = true then 1 else 0) ∧
    (∀ p, r.contains p = true ↔
      (min r.start.row r.stop.row ≤ p.row ∧ p.row ≤ max r.start.row r.stop.row) ∧
        min r.start.col r.stop.col ≤ p.col ∧ p.col ≤ max r.start.col r.stop.col) ∧
    (r.rect.positions.Pairwise fun p q => p.row < q.row ∨ p.row = q.row ∧ p.col < q.col) ∧
    (∀ height width, r.rect.height? = some height → r.rect.width? = some width →
      r.rect.positions.length = height * width) ∧
    (r.rect.height? = none ↔ Word.size ≤ r.rect.bottom - r.rect.top + 1) ∧
    (r.rect.width? = none ↔ Word.size ≤ r.rect.right - r.rect.left + 1) ∧
    ((r.start.row + 1 < Word.size ∧ r.start.col + 1 < Word.size) →
      (r.stop.row + 1 < Word.size ∧ r.stop.col + 1 < Word.size) →
      ∃ height width, r.rect.height? = some height ∧ r.rect.width? = some width) ∧
    (∀ r', r'.rect = r.rect ↔ r' ∈ r.turned) ∧
    ∀ r' ∈ r.turned, r'.rect.positions = r.rect.positions ∧ ∀ p, r'.contains p = r.contains p := by
  refine ⟨r.rect.count_positions, fun p => contains_iff, r.rect.positions_ordered,
    fun height width => length_positions, Word.add?_eq_none_iff, Word.add?_eq_none_iff,
    fun hstart hstop => ?_, fun r' => rect_eq_iff, fun r' hr' => ?_⟩
  · exact ⟨_, _, Rect.height?_eq_some_iff.2 ⟨side_lt hstart.1 hstop.1, rfl⟩,
      Rect.width?_eq_some_iff.2 ⟨side_lt hstart.2 hstop.2, rfl⟩⟩
  · have hrect := rect_eq_iff.2 hr'
    refine ⟨congrArg Rect.positions hrect, fun p => ?_⟩
    rw [contains, contains, hrect]

/-- The first column with all the rows that words can number. -/
def fullColumn : Range := ⟨⟨0, 0⟩, ⟨18446744073709551615, 0⟩⟩

/-- There is no word for the rows of the full column, so that its cells are not as many as its height
times its width. -/
theorem not_length_positions_fullColumn :
    fullColumn.rect.positions.length = Word.size ∧ fullColumn.rect.height? = none ∧
      ¬ ∃ height width, fullColumn.rect.height? = some height ∧ fullColumn.rect.width? = some width ∧
        fullColumn.rect.positions.length = height * width := by
  have hnone : fullColumn.rect.height? = none := by decide
  refine ⟨by rw [Rect.length_positions]; decide, hnone, ?_⟩
  rintro ⟨height, width, hheight, -⟩
  rw [hnone] at hheight
  cases hheight

end Range

end Spreadsheet
