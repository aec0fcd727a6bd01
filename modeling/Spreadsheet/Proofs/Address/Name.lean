import Mathlib.Data.List.TakeWhile
import Mathlib.Tactic.Ring
import Spreadsheet.Address.Position
import Spreadsheet.Proofs.Text.Classes

/-!
# Spreadsheet.Proofs.Address.Name — the id of a position is read back as the position

The letters of an id are a number in bijective base 26, its digits one in decimal notation.  Letters
are read one by one, each of them with a check that the number is still a word; since the number
only grows, what counts is whether the whole is a word.  The letters of a column have its number as
their value, counted from one.  They end where the digits begin, and the digits are those of the
row.
-/

namespace Spreadsheet

namespace Column

theorem isUpper_letter {d : Nat} (h : d < 26) : (letter d).isUpper = true := by
  have hall : ∀ d < 26, (letter d).isUpper = true := by decide
  exact hall d h

theorem rank_letter {d : Nat} (h : d < 26) : rank (letter d) = d + 1 := by
  have hall : ∀ d < 26, rank (letter d) = d + 1 := by decide
  exact hall d h

theorem isUpper_of_mem_letters {col : Nat} {c : Char} (h : c ∈ letters col) : c.isUpper = true := by
  induction col using letters.induct with
  | case1 col hcol =>
    rw [letters, if_pos hcol, List.mem_singleton] at h
    exact h ▸ isUpper_letter hcol
  | case2 col hcol ih =>
    rw [letters, if_neg hcol, List.mem_append, List.mem_singleton] at h
    rcases h with h | rfl
    · exact ih h
    · exact isUpper_letter (Nat.mod_lt _ (by decide))

theorem letters_ne_nil (col : Nat) : letters col ≠ [] := by
  rw [letters]
  split
  · exact List.cons_ne_nil _ _
  · exact List.append_ne_nil_of_right_ne_nil _ (List.cons_ne_nil _ _)

/-- The value of letters in bijective base 26: `A` to `Z` are the digits 1 to 26. -/
def value : List Char → Nat
  | [] => 0
  | c :: cs => rank c * 26 ^ cs.length + value cs

theorem value_concat (cs : List Char) (c : Char) : value (cs ++ [c]) = value cs * 26 + rank c := by
  induction cs with
  | nil => simp [value]
  | cons d cs ih =>
    rw [List.cons_append, value, value, ih, List.length_append, List.length_singleton]
    ring

theorem rank_bounds {c : Char} (h : c.isAlpha = true) : 1 ≤ rank c ∧ rank c ≤ 26 := by
  have hup := Text.isUpper_iff.1 (Text.isUpper_toUpper h)
  rw [rank]
  omega

theorem value_pos {cs : List Char} (hne : cs ≠ []) (h : ∀ c ∈ cs, c.isAlpha = true) :
    0 < value cs := by
  cases cs with
  | nil => exact absurd rfl hne
  | cons c cs =>
    have hrank := (rank_bounds (h c List.mem_cons_self)).1
    exact Nat.add_pos_left (Nat.mul_pos hrank (Nat.pow_pos (by decide))) _

/-- The letters of a column have its number as their value, counted from one. -/
theorem value_letters (col : Nat) : value (letters col) = col + 1 := by
  induction col using letters.induct with
  | case1 col hcol =>
    rw [letters, if_pos hcol, value, value, rank_letter hcol]
    simp
  | case2 col hcol ih =>
    rw [letters, if_neg hcol, value_concat, ih, rank_letter (Nat.mod_lt _ (by decide))]
    omega

theorem extend_eq_some_iff {n m : Nat} {c : Char} :
    extend n c = some m ↔ c.isAlpha = true ∧ n * 26 + rank c = m ∧ m < Word.size := by
  rw [extend]
  by_cases hc : c.isAlpha = true
  · rw [if_pos hc]
    simp only [hc, true_and, Option.ite_none_right_eq_some, Option.some.injEq]
    constructor
    · rintro ⟨hlt, rfl⟩
      exact ⟨rfl, hlt⟩
    · rintro ⟨rfl, hlt⟩
      exact ⟨hlt, rfl⟩
  · rw [if_neg hc]
    exact iff_of_false (by simp) fun h => hc h.1

/-- What has been read of letters grows with each of them, so only the whole has to be a word. -/
theorem foldlM_extend_eq_some_iff {cs : List Char} {n m : Nat} (hn : n < Word.size) :
    cs.foldlM extend n = some m ↔
      (∀ c ∈ cs, c.isAlpha = true) ∧ n * 26 ^ cs.length + value cs = m ∧ m < Word.size := by
  induction cs generalizing n with
  | nil =>
    simp only [List.foldlM_nil, List.not_mem_nil, value, List.length_nil, Nat.pow_zero, Nat.mul_one]
    constructor
    · rintro ⟨⟩
      exact ⟨by simp, rfl, hn⟩
    · rintro ⟨-, rfl, -⟩
      rfl
  | cons c cs ih =>
    have hsum : (n * 26 + rank c) * 26 ^ cs.length + value cs =
        n * 26 ^ (c :: cs).length + value (c :: cs) := by
      rw [value, List.length_cons]
      ring
    rw [List.foldlM_cons]
    constructor
    · intro h
      obtain ⟨k, hk, h⟩ := Option.bind_eq_some_iff.1 h
      obtain ⟨hc, rfl, hlt⟩ := extend_eq_some_iff.1 hk
      obtain ⟨hcs, rfl, hm⟩ := (ih hlt).1 h
      exact ⟨List.forall_mem_cons.2 ⟨hc, hcs⟩, hsum.symm, hm⟩
    · rintro ⟨halpha, rfl, hm⟩
      obtain ⟨hc, hcs⟩ := List.forall_mem_cons.1 halpha
      -- the value never shrinks, so it is a word at every letter if it is one at the end
      have hle : n * 26 + rank c ≤ (n * 26 + rank c) * 26 ^ cs.length :=
        Nat.le_mul_of_pos_right _ (Nat.pow_pos (by decide))
      have hlt : n * 26 + rank c < Word.size := by omega
      exact Option.bind_eq_some_iff.2
        ⟨_, extend_eq_some_iff.2 ⟨hc, rfl, hlt⟩, (ih hlt).2 ⟨hcs, hsum, hm⟩⟩

/-- Letters name a column exactly if their value is a word. -/
theorem index?_eq_some_iff {cs : List Char} {col : Nat} :
    index? cs = some col ↔
      cs ≠ [] ∧ (∀ c ∈ cs, c.isAlpha = true) ∧ value cs = col + 1 ∧ col + 1 < Word.size := by
  rw [index?]
  by_cases hnil : cs = []
  · subst hnil
    simp
  · rw [List.isEmpty_eq_false_iff.2 hnil, if_neg Bool.false_ne_true, Option.map_eq_some_iff]
    constructor
    · rintro ⟨m, hm, rfl⟩
      obtain ⟨halpha, hvalue, hlt⟩ := (foldlM_extend_eq_some_iff (by decide)).1 hm
      have hpos := value_pos hnil halpha
      exact ⟨hnil, halpha, by omega, by omega⟩
    · rintro ⟨-, halpha, hvalue, hlt⟩
      exact ⟨col + 1, (foldlM_extend_eq_some_iff (by decide)).2 ⟨halpha, by omega, hlt⟩, rfl⟩

theorem index?_letters {col : Nat} (h : col + 1 < Word.size) : index? (letters col) = some col :=
  index?_eq_some_iff.2 ⟨letters_ne_nil col,
    fun _ hc => Text.isAlpha_iff.2 (.inl (isUpper_of_mem_letters hc)), value_letters col, h⟩

theorem index?_lt {cs : List Char} {col : Nat} (h : index? cs = some col) : col < Word.size :=
  Nat.lt_of_succ_lt (index?_eq_some_iff.1 h).2.2.2

end Column

namespace Position

theorem ofIdText?_append {letters digits : List Char} (hl : ∀ c ∈ letters, c.isAlpha = true)
    (hd : ∀ c ∈ digits, c.isDigit = true) :
    ofIdText? (letters ++ digits) = (do
      let col ← Column.index? letters
      let row ← rowOfDigits? digits
      return ⟨row, col⟩) := by
  have hhead : ∀ c ∈ digits.head?, c.isAlpha = false := fun c hc =>
    Text.not_isAlpha_of_isDigit (hd c (List.mem_of_mem_head? hc))
  rw [ofIdText?, Text.takeWhile_append hl hhead, Text.dropWhile_append hl hhead]

/-- Digits name a row exactly if their value is a word and not zero. -/
theorem rowOfDigits?_eq_some_iff {ds : List Char} {row : Nat} :
    rowOfDigits? ds = some row ↔ ds ≠ [] ∧ (∀ d ∈ ds, d.isDigit = true) ∧
      Nat.ofDigitChars 10 ds 0 = row + 1 ∧ row + 1 < Word.size := by
  rw [rowOfDigits?]
  -- without digits, or with anything else, there is no row on either side
  by_cases hds : ds ≠ [] ∧ ∀ d ∈ ds, d.isDigit = true
  · obtain ⟨hne, hall⟩ := hds
    rw [List.isEmpty_eq_false_iff.2 hne, List.all_eq_true.2 hall]
    simp only [Bool.not_true, Bool.or_self, Bool.false_eq_true, if_false,
      Option.ite_none_right_eq_some, Option.some.injEq]
    constructor
    · rintro ⟨⟨hpos, hlt⟩, rfl⟩
      exact ⟨hne, hall, by omega, by omega⟩
    · rintro ⟨-, -, hvalue, hlt⟩
      rw [hvalue]
      exact ⟨⟨Nat.succ_pos row, hlt⟩, rfl⟩
  · rw [if_pos]
    · exact iff_of_false (by simp) fun h => hds ⟨h.1, h.2.1⟩
    · rw [not_and_or, not_not] at hds
      rcases hds with rfl | hds
      · rfl
      · have hall : ds.all Char.isDigit = false := by
          rw [← Bool.not_eq_true, List.all_eq_true]
          exact hds
        rw [hall, Bool.not_false, Bool.or_true]

theorem rowOfDigits?_toDigits {row : Nat} (h : row + 1 < Word.size) :
    rowOfDigits? (Nat.toDigits 10 (row + 1)) = some row :=
  rowOfDigits?_eq_some_iff.2 ⟨Nat.toDigits_ne_nil, fun _ hd => Text.isDigit_of_mem_toDigits hd,
    Nat.ofDigitChars_ten_toDigits, h⟩

theorem rowOfDigits?_lt {ds : List Char} {row : Nat} (h : rowOfDigits? ds = some row) :
    row < Word.size :=
  Nat.lt_of_succ_lt (rowOfDigits?_eq_some_iff.1 h).2.2.2

/-- Rows and columns that are read are words. -/
theorem ofIdText?_lt {cs : List Char} {p : Position} (h : ofIdText? cs = some p) :
    p.row < Word.size ∧ p.col < Word.size := by
  obtain ⟨col, hcol, h⟩ := Option.bind_eq_some_iff.1 h
  obtain ⟨row, hrow, h⟩ := Option.bind_eq_some_iff.1 h
  cases h
  exact ⟨rowOfDigits?_lt hrow, Column.index?_lt hcol⟩

/-- An id is written in ASCII. -/
theorem ofIdText?_eq_none {cs : List Char} {c : Char} (hc : c ∈ cs) (h : 0x80 ≤ c.toNat) :
    ofIdText? cs = none := by
  have halpha : c.isAlpha = false := by
    rw [← Bool.not_eq_true, Text.isAlpha_iff, Text.isUpper_iff, Text.isLower_iff]
    omega
  have hdigit : c.isDigit = false := by
    rw [← Bool.not_eq_true, Text.isDigit_iff]
    omega
  have hrest : c ∈ cs.dropWhile Char.isAlpha := by
    rw [← List.takeWhile_append_dropWhile (p := Char.isAlpha) (l := cs), List.mem_append] at hc
    refine hc.resolve_left fun hmem => ?_
    rw [List.mem_takeWhile_imp hmem] at halpha
    cases halpha
  have hall : (cs.dropWhile Char.isAlpha).all Char.isDigit = false :=
    List.all_eq_false.2 ⟨c, hrest, by rw [hdigit]; exact Bool.false_ne_true⟩
  have hrow : rowOfDigits? (cs.dropWhile Char.isAlpha) = none := by
    rw [rowOfDigits?, hall]
    simp
  rw [ofIdText?, hrow]
  cases Column.index? (cs.takeWhile Char.isAlpha) <;> rfl

section Id

variable {p : Position} (hrow : p.row + 1 < Word.size) (hcol : p.col + 1 < Word.size)

include hrow hcol

theorem ofIdText?_idText : ofIdText? p.idText = some p := by
  rw [idText, Word.add_eq hrow, ofIdText?_append
    (fun c hc => Text.isAlpha_iff.2 (.inl (Column.isUpper_of_mem_letters hc)))
    (fun c hc => Text.isDigit_of_mem_toDigits hc), Column.index?_letters hcol, rowOfDigits?_toDigits hrow]
  rfl

/-- Ids are read back. -/
theorem parse_id : parse p.id = .ok p := by
  rw [parse, id, String.toList_ofList, ofIdText?_idText hrow hcol]

end Id

end Position

end Spreadsheet
