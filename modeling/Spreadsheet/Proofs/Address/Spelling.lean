import Mathlib.Data.List.Induction
import Spreadsheet.Address.Range
import Spreadsheet.Proofs.Address.Name

/-!
# Spreadsheet.Proofs.Address.Spelling — which texts are ids, and of which positions

A text is an id exactly if it is letters and then digits, the values of both are words, and the
second one is not zero.  The id of the position is the same text in upper case and without leading
zeros.  Texts of ranges are two ids, and they are read back as well.
-/

namespace Spreadsheet

namespace Column

theorem letter_rank {c : Char} (h : c.isAlpha = true) : letter (rank c - 1) = c.toUpper := by
  have hup := Text.isUpper_iff.1 (Text.isUpper_toUpper h)
  have hcode : 65 + (rank c - 1) = c.toUpper.toNat := by
    rw [rank]
    omega
  rw [letter, hcode, Char.ofNat_toNat]

/-- Letters are those of the column that has their value. -/
theorem letters_value {cs : List Char} (hne : cs ≠ []) (h : ∀ c ∈ cs, c.isAlpha = true) :
    letters (value cs - 1) = cs.map Char.toUpper := by
  induction cs using List.reverseRecOn with
  | nil => exact absurd rfl hne
  | append_singleton cs c ih =>
    obtain ⟨hcs, hc⟩ := List.forall_mem_append.1 h
    have halpha := hc c (List.mem_singleton_self c)
    have hrank := rank_bounds halpha
    rw [value_concat, List.map_append, List.map_singleton, ← letter_rank halpha, letters]
    by_cases hnil : cs = []
    · subst hnil
      simp only [value, Nat.zero_mul, Nat.zero_add]
      rw [if_pos (by omega)]
      rfl
    · have hpos := value_pos hnil hcs
      have hdiv : (value cs * 26 + rank c - 1) / 26 - 1 = value cs - 1 := by omega
      have hmod : (value cs * 26 + rank c - 1) % 26 = rank c - 1 := by omega
      rw [if_neg (by omega), hdiv, hmod, ih hnil hcs]

end Column

/-! ### Leading zeros -/

section Digits

theorem toDigits_digit {d : Char} (h : d.isDigit = true) :
    Nat.toDigits 10 (d.toNat - 48) = [d] := by
  have hrange := Text.isDigit_iff.1 h
  rw [Nat.toDigits_of_lt_base (by omega)]
  refine congrArg (· :: []) (Char.toNat_inj.1 ?_)
  rw [Nat.toNat_digitChar_of_lt_ten (by omega)]
  omega

/-- Digits behind a number that is not zero are the last ones of the number that both make. -/
theorem toDigits_append_digits {n : Nat} (hn : 0 < n) {ds : List Char}
    (h : ∀ d ∈ ds, d.isDigit = true) :
    Nat.toDigits 10 n ++ ds = Nat.toDigits 10 (Nat.ofDigitChars 10 ds n) := by
  induction ds generalizing n with
  | nil => rw [List.append_nil, Nat.ofDigitChars_nil]
  | cons d ds ih =>
    obtain ⟨hd, hds⟩ := List.forall_mem_cons.1 h
    have hlt : d.toNat - 48 < 10 := by
      have hrange := Text.isDigit_iff.1 hd
      omega
    have hsum : 0 < 10 * n + (d.toNat - 48) := by omega
    rw [Nat.ofDigitChars_cons, show '0'.toNat = 48 from rfl, ← ih hsum hds,
      ← Nat.toDigits_append_toDigits (by decide) hn hlt, toDigits_digit hd, List.append_assoc,
      List.singleton_append]

/-- The digits of the value of digits are these without leading zeros. -/
theorem toDigits_ofDigitChars {ds : List Char} (h : ∀ d ∈ ds, d.isDigit = true)
    (hpos : 0 < Nat.ofDigitChars 10 ds 0) :
    Nat.toDigits 10 (Nat.ofDigitChars 10 ds 0) = ds.dropWhile (· == '0') := by
  induction ds with
  | nil => cases hpos
  | cons d ds ih =>
    obtain ⟨hd, hds⟩ := List.forall_mem_cons.1 h
    rw [Nat.ofDigitChars_cons, show '0'.toNat = 48 from rfl, Nat.mul_zero, Nat.zero_add] at hpos ⊢
    by_cases hzero : d = '0'
    · subst hzero
      exact ih hds hpos
    · -- the notation begins with the first digit that is not zero, whatever follows
      have hcode : d.toNat ≠ 48 := fun heq => hzero (Char.toNat_inj.1 heq)
      have hrange := Text.isDigit_iff.1 hd
      rw [List.dropWhile_cons_of_neg (by simpa using hzero),
        ← toDigits_append_digits (by omega) hds, toDigits_digit hd, List.singleton_append]

end Digits

namespace Position

/-- Letters and digits that spell a position: the numbers of its column and its row, counted from
one, the first in bijective base 26, the second in decimal notation. -/
structure Spells (letters digits : List Char) (p : Position) : Prop where
  lettered : letters ≠ []
  numbered : digits ≠ []
  isAlpha : ∀ c ∈ letters, c.isAlpha = true
  isDigit : ∀ d ∈ digits, d.isDigit = true
  col_eq : Column.value letters = p.col + 1
  row_eq : Nat.ofDigitChars 10 digits 0 = p.row + 1
  col_lt : p.col + 1 < Word.size
  row_lt : p.row + 1 < Word.size

theorem ofIdText?_eq_some_iff {cs : List Char} {p : Position} :
    ofIdText? cs = some p ↔ ∃ letters digits, cs = letters ++ digits ∧ Spells letters digits p := by
  constructor
  · intro h
    obtain ⟨col, hcol, h⟩ := Option.bind_eq_some_iff.1 h
    obtain ⟨row, hrow, h⟩ := Option.bind_eq_some_iff.1 h
    cases h
    obtain ⟨hletters, halpha, hcolumn, hcl⟩ := Column.index?_eq_some_iff.1 hcol
    obtain ⟨hdigits, hdigit, hnumber, hrl⟩ := rowOfDigits?_eq_some_iff.1 hrow
    exact ⟨_, _, List.takeWhile_append_dropWhile.symm,
      hletters, hdigits, halpha, hdigit, hcolumn, hnumber, hcl, hrl⟩
  · rintro ⟨letters, digits, rfl, h⟩
    rw [ofIdText?_append h.isAlpha h.isDigit,
      Column.index?_eq_some_iff.2 ⟨h.lettered, h.isAlpha, h.col_eq, h.col_lt⟩,
      rowOfDigits?_eq_some_iff.2 ⟨h.numbered, h.isDigit, h.row_eq, h.row_lt⟩]
    rfl

theorem parse_eq_ok_iff {s : String} {p : Position} :
    parse s = .ok p ↔ ofIdText? s.toList = some p := by
  rw [parse]
  cases ofIdText? s.toList <;> simp

/-- The id of a position is its spelling in upper case and without leading zeros. -/
theorem Spells.idText_eq {letters digits : List Char} {p : Position} (h : Spells letters digits p) :
    p.idText = letters.map Char.toUpper ++ digits.dropWhile (· == '0') := by
  have hcol : p.col = Column.value letters - 1 := by
    rw [h.col_eq, Nat.add_sub_cancel]
  have hpos : 0 < Nat.ofDigitChars 10 digits 0 := by
    rw [h.row_eq]
    exact Nat.succ_pos _
  rw [idText, Word.add_eq h.row_lt, hcol, Column.letters_value h.lettered h.isAlpha, ← h.row_eq,
    toDigits_ofDigitChars h.isDigit hpos]

theorem isUpper_or_isDigit_of_mem_idText {p : Position} {c : Char} (h : c ∈ p.idText) :
    c.isUpper = true ∨ c.isDigit = true :=
  (List.mem_append.1 h).imp Column.isUpper_of_mem_letters Text.isDigit_of_mem_toDigits

theorem not_isBlank_of_mem_idText {p : Position} {c : Char} (h : c ∈ p.idText) :
    Text.isBlank c = false := by
  rw [← Bool.not_eq_true]
  intro hblank
  rcases isUpper_or_isDigit_of_mem_idText h with hup | hdigit
  · rw [Text.not_isUpper_of_isBlank hblank] at hup
    cases hup
  · rw [Text.not_isDigit_of_isBlank hblank] at hdigit
    cases hdigit

theorem ne_colon_of_mem_idText {p : Position} {c : Char} (h : c ∈ p.idText) :
    (c != ':') = true := by
  rw [bne_iff_ne]
  rintro rfl
  exact absurd (isUpper_or_isDigit_of_mem_idText h) (by decide)

theorem trimmed_id (p : Position) : Text.trimmed p.id = p.id := by
  rw [Text.trimmed, id, String.toList_ofList,
    Text.trim_eq_self fun c hc => not_isBlank_of_mem_idText hc]

end Position

/-- The text of a range is read back as the range. -/
theorem Range.parse_text {r : Range}
    (hstart : r.start.row + 1 < Word.size ∧ r.start.col + 1 < Word.size)
    (hstop : r.stop.row + 1 < Word.size ∧ r.stop.col + 1 < Word.size) :
    Range.parse r.text = .ok r := by
  have hchars : r.text.toList = r.start.idText ++ ':' :: r.stop.idText := by
    rw [text, String.toList_append, String.toList_append, Position.id, Position.id,
      String.toList_ofList, List.append_assoc, String.toList_ofList, String.toList_ofList,
      List.singleton_append]
  -- the first colon parts the text, since no id has one
  have hcolon : ∀ c ∈ (':' :: r.stop.idText).head?, (c != ':') = false := by
    rintro c ⟨⟩
    rfl
  have hfirst : Text.trimmed (String.ofList (r.text.toList.takeWhile (· != ':'))) = r.start.id := by
    rw [hchars, Text.takeWhile_append (fun c hc => Position.ne_colon_of_mem_idText hc) hcolon]
    exact Position.trimmed_id r.start
  have hrest : r.text.toList.dropWhile (· != ':') = ':' :: r.stop.idText := by
    rw [hchars, Text.dropWhile_append (fun c hc => Position.ne_colon_of_mem_idText hc) hcolon]
  have hsecond : Text.trimmed (String.ofList r.stop.idText) = r.stop.id :=
    Position.trimmed_id r.stop
  simp only [parse, hfirst, hrest, hsecond, Position.parse_id hstart.1 hstart.2,
    Position.parse_id hstop.1 hstop.2]
  rfl

/-! ### Ids and positions -/

namespace Position

/-- Ids and positions are in bijection.  The id of a position that leaves room for one more row and
column is read back, and so is the text of a range of such positions; its row is written without
wrapping round, its column with letters of this value.  A text is read exactly if its letters and
digits spell a position, whose id is these letters in upper case and these digits without leading
zeros.  What is read of letters is their value, which is a word and not zero, so that counting from
zero takes nothing from zero. -/
theorem parse_eq_ok_iff_spells :
    (∀ p : Position, p.row + 1 < Word.size → p.col + 1 < Word.size →
      parse p.id = .ok p ∧ Column.value (Column.letters p.col) = p.col + 1 ∧
        p.idText = Column.letters p.col ++ Nat.toDigits 10 (p.row + 1)) ∧
    (∀ r : Range, r.start.row + 1 < Word.size → r.start.col + 1 < Word.size →
      r.stop.row + 1 < Word.size → r.stop.col + 1 < Word.size → Range.parse r.text = .ok r) ∧
    (∀ (s : String) (p : Position), parse s = .ok p ↔
      ∃ letters digits, s.toList = letters ++ digits ∧ Spells letters digits p) ∧
    (∀ (letters digits : List Char) (p : Position), Spells letters digits p →
      p.id = String.ofList (letters.map Char.toUpper ++ digits.dropWhile (· == '0'))) ∧
    (∀ (letters : List Char) (n : Nat), letters ≠ [] → letters.foldlM Column.extend 0 = some n →
      n = Column.value letters ∧ 0 < n ∧ n < Word.size) := by
  refine ⟨fun p hrow hcol => ⟨parse_id hrow hcol, Column.value_letters p.col, ?_⟩,
    fun r hr hc hr' hc' => Range.parse_text ⟨hr, hc⟩ ⟨hr', hc'⟩,
    fun s p => parse_eq_ok_iff.trans ofIdText?_eq_some_iff,
    fun letters digits p h => congrArg String.ofList h.idText_eq, fun letters n hne h => ?_⟩
  · rw [idText, Word.add_eq hrow]
  · obtain ⟨halpha, hvalue, hlt⟩ := (Column.foldlM_extend_eq_some_iff (by decide)).1 h
    rw [Nat.zero_mul, Nat.zero_add] at hvalue
    exact ⟨hvalue.symm, hvalue ▸ Column.value_pos hne halpha, hlt⟩

/-- The last position that has an id, the range that ends there, and an id with more characters than
its position needs. -/
theorem parse_eq_ok_iff_spells_lastCell :
    parse (⟨Word.size - 2, Word.size - 2⟩ : Position).id = .ok ⟨Word.size - 2, Word.size - 2⟩ ∧
    Range.parse (⟨⟨0, 0⟩, ⟨Word.size - 2, Word.size - 2⟩⟩ : Range).text =
      .ok ⟨⟨0, 0⟩, ⟨Word.size - 2, Word.size - 2⟩⟩ ∧
    parse "ab007" = .ok ⟨6, 27⟩ ∧ (⟨6, 27⟩ : Position).id = "AB7" ∧
    Column.value ['a', 'b'] = 28 := by
  obtain ⟨hids, hranges, hread, hcanonical, hexact⟩ := parse_eq_ok_iff_spells
  have hspells : Spells ['a', 'b'] ['0', '0', '7'] ⟨6, 27⟩ :=
    { lettered := List.cons_ne_nil _ _
      numbered := List.cons_ne_nil _ _
      isAlpha := List.all_eq_true.1 rfl
      isDigit := List.all_eq_true.1 rfl
      col_eq := by decide
      row_eq := by decide
      col_lt := by decide
      row_lt := by decide }
  exact ⟨(hids _ (by decide) (by decide)).1,
    hranges _ (by decide) (by decide) (by decide) (by decide),
    (hread _ _).2 ⟨_, _, rfl, hspells⟩, hcanonical _ _ _ hspells,
    (hexact ['a', 'b'] 28 (by decide) (by decide)).1.symm⟩

end Position

end Spreadsheet
