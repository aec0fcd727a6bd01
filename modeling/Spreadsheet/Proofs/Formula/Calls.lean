import Spreadsheet.Proofs.Formula.Trail
import Spreadsheet.Proofs.Formula.UpperCase

/-!
# Spreadsheet.Proofs.Formula.Calls — the first pass replaces the calls

In the text of a phrase the first pass finds exactly the calls.  Before a call there is the start of
the text or a mark, and a call may begin behind either; a cell name has digits where a call has its
parenthesis, so it is none; and no call reaches beyond its own closing parenthesis.
-/

namespace Spreadsheet

open Arithmetic

namespace Piece

variable {α : Type} (f : α → Except ErrorValue (List Char))

theorem replace_plain_append (cs : List Char) (ps : List (Piece α)) :
    replace f (cs.map plain ++ ps) = (cs ++ ·) <$> replace f ps := by
  induction cs with
  | nil => simp
  | cons c cs ih =>
    rw [List.map_cons, List.cons_append, replace, ih]
    simp [Functor.map_map]

theorem replace_part (a : α) (ps : List (Piece α)) :
    replace f (part a :: ps) = f a >>= fun here => (here ++ ·) <$> replace f ps := by
  rw [replace]
  simp

end Piece

/-! ### Reading a call -/

namespace RangeCall

theorem splitFrom_false (c : Char) (cs : List Char) :
    splitFrom 0 false (c :: cs) = .plain c :: splitFrom 0 (separates c) cs := rfl

/-- A name or a numeral is no call and does not let one begin behind it. -/
theorem splitFrom_word {ds : List Char} (h : ∀ c ∈ ds, separates c = false) (cs : List Char) :
    splitFrom 0 false (ds ++ cs) = ds.map .plain ++ splitFrom 0 false cs := by
  induction ds with
  | nil => rfl
  | cons d ds ih =>
    rw [List.cons_append, splitFrom_false, h d List.mem_cons_self,
      ih fun c hc => h c (List.mem_cons_of_mem d hc)]
    rfl

theorem splitFrom_true {c : Char} {cs : List Char} (h : read? (c :: cs) = none) :
    splitFrom 0 true (c :: cs) = .plain c :: splitFrom 0 (separates c) cs := by
  rw [splitFrom, if_pos rfl, h]

theorem read?_of_not_isUpper {c : Char} (h : c.isUpper = false) (cs : List Char) :
    read? (c :: cs) = none := by
  have hname : (c :: cs).takeWhile Char.isUpper = [] :=
    List.takeWhile_cons_of_neg (by rw [h]; exact Bool.false_ne_true)
  rw [read?, hname]
  rfl

/-- Whether a call may begin does not matter where there is no letter. -/
theorem splitFrom_flag {cs : List Char} (h : ∀ c ∈ cs.head?, c.isUpper = false) (mayBegin : Bool) :
    splitFrom 0 mayBegin cs = split cs := by
  cases mayBegin with
  | true => rfl
  | false =>
    cases cs with
    | nil => rfl
    | cons c cs =>
      rw [split, splitFrom_false, splitFrom_true (read?_of_not_isUpper (h c rfl) cs)]

theorem splitFrom_skip (k : Nat) (mayBegin : Bool) (cs : List Char) :
    splitFrom k mayBegin cs = splitFrom 0 mayBegin (cs.drop k) := by
  induction k generalizing cs with
  | zero => rw [List.drop_zero]
  | succ k ih =>
    cases cs with
    | nil => rfl
    | cons c cs =>
      rw [splitFrom, ih]
      rfl

theorem expect?_cons (c : Char) (cs : List Char) : expect? c (c :: cs) = some cs := by
  rw [expect?, if_pos rfl]

theorem expect?_of_ne {c d : Char} (h : d ≠ c) (cs : List Char) : expect? c (d :: cs) = none := by
  rw [expect?, if_neg h]

/-- A letter behind which no parenthesis follows the letters begins no call. -/
theorem read?_of_digit {letters : List Char} (hl : ∀ c ∈ letters, c.isUpper = true) {d : Char}
    (hd : d.isDigit = true) (cs : List Char) : read? (letters ++ d :: cs) = none := by
  have hne : d ≠ '(' := by
    rintro rfl
    exact absurd hd (by decide)
  have hhead : ∀ c ∈ (d :: cs).head?, c.isUpper = false := by
    rintro c ⟨⟩
    exact Text.not_isUpper_of_isDigit hd
  rw [read?, Text.takeWhile_append hl hhead, Text.dropWhile_append hl hhead, expect?_of_ne hne]
  cases Aggregate.ofName? (String.ofList letters) <;> rfl

theorem trimStart_append {gap cs : List Char} (hgap : ∀ c ∈ gap, Text.isBlank c = true)
    (hcs : ∀ c ∈ cs.head?, Text.isBlank c = false) : Text.trimStart (gap ++ cs) = cs :=
  Text.dropWhile_append hgap hcs

/-- A reference is read to its end, which is where the digits end. -/
theorem readReference?_append {r : Reference} (hl : ∀ c ∈ r.letters, c.isUpper = true)
    (hd : ∀ c ∈ r.digits, c.isDigit = true) (hlne : r.letters ≠ []) (hdne : r.digits ≠ [])
    {cs : List Char} (hcs : ∀ c ∈ cs.head?, Text.isDecimalDigit c = false) :
    readReference? (r.text ++ cs) = some (r, cs) := by
  obtain ⟨letters, digits⟩ := r
  have hhead : ∀ c ∈ (digits ++ cs).head?, c.isUpper = false := by
    intro c hc
    rw [List.head?_append_of_ne_nil _ hdne] at hc
    exact Text.not_isUpper_of_isDigit (hd c (List.mem_of_mem_head? hc))
  have hdec : ∀ c ∈ digits, Text.isDecimalDigit c = true := fun c hc =>
    Text.isDecimalDigit_of_isDigit (hd c hc)
  have hempty : (letters.isEmpty || digits.isEmpty) = false := by
    rw [List.isEmpty_eq_false_iff.2 hlne, List.isEmpty_eq_false_iff.2 hdne]
    rfl
  rw [readReference?, Reference.text, List.append_assoc]
  simp only [Text.takeWhile_append hl hhead, Text.dropWhile_append hl hhead,
    Text.takeWhile_append hdec hcs, Text.dropWhile_append hdec hcs, hempty]
  rfl

end RangeCall

namespace Formula

theorem CellName.isUpper_upper (n : CellName) : ∀ c ∈ n.upper.letters, c.isUpper = true := by
  intro c hc
  obtain ⟨d, hd, rfl⟩ := List.mem_map.1 hc
  exact Text.isUpper_toUpper (n.isAlpha d hd)

theorem CellName.upper_letters_ne_nil (n : CellName) : n.upper.letters ≠ [] := by
  rw [CellName.upper, ne_eq, List.map_eq_nil_iff]
  exact n.lettered

theorem readReference?_name (n : CellName) {cs : List Char}
    (hcs : ∀ c ∈ cs.head?, Text.isDecimalDigit c = false) :
    RangeCall.readReference? (n.upper.text ++ cs) = some (n.upper, cs) :=
  RangeCall.readReference?_append n.isUpper_upper n.isDigit n.upper_letters_ne_nil n.numbered hcs

theorem head?_name_append (n : CellName) (cs : List Char) :
    ∀ c ∈ (n.upper.text ++ cs).head?, Text.isBlank c = false := by
  intro c hc
  rw [Reference.text, List.append_assoc, List.head?_append_of_ne_nil _ n.upper_letters_ne_nil] at hc
  have hup := n.isUpper_upper c (List.mem_of_mem_head? hc)
  cases hblank : Text.isBlank c with
  | false => rfl
  | true =>
    rw [Text.not_isUpper_of_isBlank hblank] at hup
    exact Bool.noConfusion hup

theorem head?_gap_append {p : Char → Bool} (gap : Blanks) {d : Char} (cs : List Char)
    (hblank : ∀ c, Text.isBlank c = true → p c = false) (hd : p d = false) :
    ∀ c ∈ (gap.1 ++ d :: cs).head?, p c = false := by
  obtain ⟨gap, hgap⟩ := gap
  cases gap with
  | nil =>
    rintro c ⟨⟩
    exact hd
  | cons b gap =>
    rintro c ⟨⟩
    exact hblank b (hgap b List.mem_cons_self)

theorem ofName?_name (f : Aggregate) : Aggregate.ofName? (String.ofList f.name.toList) = some f := by
  cases f <;> decide

/-- A call in upper case is read as what it is. -/
theorem read?_call (k : Call) (cs : List Char) :
    RangeCall.read? (k.upperText ++ ')' :: cs) = some k.upper := by
  have hparen : ∀ rest : List Char, ∀ c ∈ ('(' :: rest).head?, c.isUpper = false := by
    rintro rest c ⟨⟩
    rfl
  have hname : ∀ c ∈ k.function.name.toList, c.isUpper = true := fun c hc => isUpper_of_mem_name hc
  have hdec : ∀ c, Text.isBlank c = true → Text.isDecimalDigit c = false := fun c hc =>
    Text.not_isDecimalDigit_of_isBlank hc
  have hcolon : ∀ rest : List Char, ∀ c ∈ (':' :: rest).head?, Text.isBlank c = false := by
    rintro rest c ⟨⟩
    rfl
  have hclose : ∀ c ∈ (')' :: cs).head?, Text.isBlank c = false := by
    rintro c ⟨⟩
    rfl
  simp only [Call.upperText, List.append_assoc, List.cons_append]
  -- each part is read up to the first character that is not its own
  rw [RangeCall.read?, Text.takeWhile_append hname (hparen _),
    Text.dropWhile_append hname (hparen _), ofName?_name, RangeCall.expect?_cons]
  simp only [Option.bind_eq_bind, Option.bind_some]
  rw [RangeCall.trimStart_append k.gap₁.2 (head?_name_append _ _),
    readReference?_name k.first (head?_gap_append k.gap₂ _ hdec rfl)]
  simp only [Option.bind_some]
  rw [RangeCall.trimStart_append k.gap₂.2 (hcolon _), RangeCall.expect?_cons]
  simp only [Option.bind_some]
  rw [RangeCall.trimStart_append k.gap₃.2 (head?_name_append _ _),
    readReference?_name k.last (head?_gap_append k.gap₄ _ hdec rfl)]
  simp only [Option.bind_some]
  rw [RangeCall.trimStart_append k.gap₄.2 hclose, RangeCall.expect?_cons]
  rfl

theorem ne_close_of_mem_upperText {k : Call} {c : Char} (h : c ∈ k.upperText) : c ≠ ')' := by
  have hname : ∀ n : CellName, ∀ c ∈ n.upper.text, c ≠ ')' := by
    rintro n c hc rfl
    rcases List.mem_append.1 hc with hc | hc
    · exact absurd (n.isUpper_upper _ hc) (by decide)
    · exact absurd (n.isDigit _ hc) (by decide)
  have hgap : ∀ gap : Blanks, ∀ c ∈ gap.1, c ≠ ')' := by
    rintro gap c hc rfl
    exact absurd (gap.2 _ hc) (by decide)
  simp only [Call.upperText, List.mem_append, List.mem_cons] at h
  rcases h with h | rfl | h | h | h | rfl | h | h | h
  · rintro rfl
    exact absurd (isUpper_of_mem_name h) (by decide)
  · decide
  · exact hgap _ c h
  · exact hname _ c h
  · exact hgap _ c h
  · decide
  · exact hgap _ c h
  · exact hname _ c h
  · exact hgap _ c h

/-- A call is one part, and nothing of it is left for what follows. -/
theorem split_call (k : Call) {cs : List Char} (hcs : ∀ c ∈ cs.head?, c.isUpper = false) :
    RangeCall.split (k.upperText ++ ')' :: cs) = .part k.upper :: RangeCall.split cs := by
  have hread := read?_call k cs
  have hclose : ∀ c ∈ k.upperText, c ≠ ')' := fun c hc => ne_close_of_mem_upperText hc
  cases htext : k.upperText with
  | nil =>
    rw [htext] at hread
    rw [List.nil_append, RangeCall.read?_of_not_isUpper rfl] at hread
    cases hread
  | cons c inner =>
    rw [htext] at hread hclose
    have hinner : ∀ d ∈ inner, (d != ')') = true := fun d hd =>
      bne_iff_ne.2 (hclose d (List.mem_cons_of_mem c hd))
    -- the text of a call has no parenthesis that closes
    have htake : (inner ++ ')' :: cs).takeWhile (· != ')') = inner :=
      Text.takeWhile_append hinner (by rintro d ⟨⟩; rfl)
    have hdrop : (inner ++ ')' :: cs).drop (inner.length + 1) = cs := by
      rw [List.drop_append, List.drop_of_length_le (by omega), List.nil_append,
        show inner.length + 1 - inner.length = 1 by omega]
      rfl
    rw [RangeCall.split, List.cons_append, RangeCall.splitFrom, if_pos rfl, ← List.cons_append,
      hread]
    simp only
    rw [htake, RangeCall.splitFrom_skip, hdrop, RangeCall.splitFrom_flag hcs]

theorem not_isUpper_of_closed {cs : List Char} (h : Closed cs) :
    ∀ c ∈ cs.head?, c.isUpper = false := by
  intro c hc
  rcases isMark_cases (h c hc) with hc | rfl | rfl | rfl | rfl | rfl | rfl
  · exact Text.not_isUpper_of_isBlank hc
  all_goals rfl

theorem split_word {word cs : List Char} (hne : word ≠ [])
    (hread : RangeCall.read? (word ++ cs) = none) (h : ∀ c ∈ word, RangeCall.separates c = false)
    (hcs : Closed cs) :
    RangeCall.split (word ++ cs) = word.map .plain ++ RangeCall.split cs := by
  cases word with
  | nil => exact absurd rfl hne
  | cons d ds =>
    rw [List.cons_append] at hread
    rw [RangeCall.split, List.cons_append, RangeCall.splitFrom_true hread, h d List.mem_cons_self,
      RangeCall.splitFrom_word fun c hc => h c (List.mem_cons_of_mem d hc),
      RangeCall.splitFrom_flag (not_isUpper_of_closed hcs)]
    rfl

theorem split_numeral (n : Numeral) {cs : List Char} (hcs : Closed cs) :
    RangeCall.split (n.text ++ cs) = n.text.map .plain ++ RangeCall.split cs := by
  have hkind : ∀ c ∈ n.text, c.isDigit = true ∨ c = '.' := by
    intro c hc
    have h := n.isNumeral c hc
    rwa [Token.isNumeral, Bool.or_eq_true, beq_iff_eq] at h
  -- a numeral begins no call, and every character of it separates
  refine split_word n.filled ?_ (fun c hc => ?_) hcs
  · obtain ⟨d, ds, htext⟩ := List.exists_cons_of_ne_nil n.filled
    have hd := hkind d (by rw [htext]; exact List.mem_cons_self)
    rw [htext, List.cons_append]
    refine RangeCall.read?_of_not_isUpper ?_ _
    rcases hd with hd | rfl
    · exact Text.not_isUpper_of_isDigit hd
    · rfl
  · rcases hkind c hc with h | rfl
    · rw [RangeCall.separates, h, Bool.or_true, Bool.true_or]
      rfl
    · rfl

theorem split_name (n : CellName) {cs : List Char} (hcs : Closed cs) :
    RangeCall.split (n.upper.text ++ cs) = n.upper.text.map .plain ++ RangeCall.split cs := by
  refine split_word ?_ ?_ (fun c hc => ?_) hcs
  · exact List.append_ne_nil_of_left_ne_nil n.upper_letters_ne_nil _
  · obtain ⟨d, ds, hdigits⟩ := List.exists_cons_of_ne_nil n.numbered
    have hd := n.isDigit d (by rw [hdigits]; exact List.mem_cons_self)
    have htext : n.upper.text = n.upper.letters ++ d :: ds := by rw [← hdigits]; rfl
    rw [htext, List.append_assoc]
    exact RangeCall.read?_of_digit n.isUpper_upper hd _
  · rcases List.mem_append.1 hc with h | h
    · rw [RangeCall.separates, n.isUpper_upper c h, Bool.true_or, Bool.true_or]
      rfl
    · rw [RangeCall.separates, n.isDigit c h, Bool.or_true, Bool.true_or]
      rfl

/-! ### The first pass -/

section Calls

variable (dims : Dimensions) (valueOf : Position → Value)

theorem separates_of_isMark {c : Char} (h : isMark c = true) : RangeCall.separates c = true := by
  rcases isMark_cases h with h | rfl | rfl | rfl | rfl | rfl | rfl
  · have hdot : (c == '.') = false := beq_eq_false_iff_ne.2 (Text.ne_of_isBlank h rfl)
    rw [RangeCall.separates, Text.not_isUpper_of_isBlank h, Text.not_isDigit_of_isBlank h, hdot]
    rfl
  all_goals rfl

/-- The operands after the first pass, as they are written. -/
def Reduced.chars : Reduced → List Char
  | numeral n => n.text
  | name n => n.upper.text
  | number x => spliced x

theorem pass_replaceCalls : Pass (fun c => [c]) (replaceCalls dims valueOf) where
  nil := rfl
  cons c cs h := by
    have hup : c.isUpper = false := not_isUpper_of_closed (closed_cons h cs) c rfl
    rw [replaceCalls, RangeCall.split, RangeCall.splitFrom_true (RangeCall.read?_of_not_isUpper hup cs),
      separates_of_isMark h]
    exact Piece.replace_plain_append _ [c] _

theorem replaceCalls_operand (a : Operand) {cs : List Char} (hcs : Closed cs) :
    replaceCalls dims valueOf (a.upperText ++ cs) =
      a.reduce dims valueOf >>= fun b => (b.chars ++ ·) <$> replaceCalls dims valueOf cs := by
  cases a with
  | numeral n =>
    rw [Operand.upperText, replaceCalls, split_numeral n hcs, Piece.replace_plain_append]
    rfl
  | name n =>
    rw [Operand.upperText, replaceCalls, split_name n hcs, Piece.replace_plain_append]
    rfl
  | call k =>
    have hpos := not_isUpper_of_closed hcs
    rw [Operand.upperText, List.append_assoc, List.singleton_append, replaceCalls, split_call k hpos,
      Piece.replace_part, callChars, Operand.reduce, Call.upper, ofIdText?_upper, ofIdText?_upper]
    simp [Reduced.chars, replaceCalls]

/-- The first pass replaces the calls of a formula, from left to right. -/
theorem replaceCalls_body (s : Body) :
    replaceCalls dims valueOf (s.text Operand.upperText) =
      (fun r => r.text Reduced.chars) <$> s.mapM (Operand.reduce dims valueOf) := by
  have h := (pass_replaceCalls dims valueOf).phrase (Operand.reduce dims valueOf)
    Operand.upperText Reduced.chars s
    (fun a _ cs hcs => replaceCalls_operand dims valueOf a hcs) closed_nil
  rw [List.append_nil] at h
  rw [h, (pass_replaceCalls dims valueOf).nil]
  simp [Phrase.text]

end Calls

end Formula

end Spreadsheet
