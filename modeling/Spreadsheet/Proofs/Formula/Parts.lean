import Spreadsheet.Proofs.Formula.Dependence
import Spreadsheet.Proofs.Formula.Seams

/-!
# Spreadsheet.Proofs.Formula.Parts — the parts of a formula

`cutFrom` cuts a formula into its calls, the references outside them and the plain characters
between.  Together these pieces spell the formula, and the pieces of a phrase are its marks, its
numerals and one part for every call and every cell name.
-/

namespace Spreadsheet

/-! ### What a call and a reference look like -/

/-- Capital letters and decimal digits, both of them at least once. -/
structure Reference.WellRead (r : Reference) : Prop where
  lettered : r.letters ≠ []
  numbered : r.digits ≠ []
  isUpper : ∀ c ∈ r.letters, c.isUpper = true
  isDecimalDigit : ∀ c ∈ r.digits, Text.isDecimalDigit c = true

namespace RangeCall

open Arithmetic

/-- The characters of a call, for the blanks in it, up to its closing parenthesis. -/
def innerText (k : RangeCall) (gap₁ gap₂ gap₃ gap₄ : Blanks) : List Char :=
  k.function.name.toList ++ '(' :: (gap₁.1 ++ (k.first.text ++ (gap₂.1 ++ ':' ::
    (gap₃.1 ++ (k.last.text ++ gap₄.1)))))

/-- A call is spelled by these characters. -/
def Spelled (k : RangeCall) (here : List Char) : Prop :=
  k.first.WellRead ∧ k.last.WellRead ∧
    ∃ gap₁ gap₂ gap₃ gap₄, here = k.innerText gap₁ gap₂ gap₃ gap₄ ++ [')']

theorem expect?_eq_some {c : Char} {cs rest : List Char} (h : expect? c cs = some rest) :
    cs = c :: rest := by
  cases cs with
  | nil => cases h
  | cons d cs =>
    rw [expect?] at h
    split at h
    · rename_i hd
      cases h
      rw [hd]
    · cases h

theorem exists_gap (cs : List Char) : ∃ gap : Blanks, cs = gap.1 ++ Text.trimStart cs :=
  ⟨⟨cs.takeWhile Text.isBlank, fun _ hc => List.mem_takeWhile_imp hc⟩,
    List.takeWhile_append_dropWhile.symm⟩

theorem readReference?_eq_some {cs rest : List Char} {r : Reference}
    (h : readReference? cs = some (r, rest)) : r.WellRead ∧ cs = r.text ++ rest := by
  rw [readReference?] at h
  split at h
  · cases h
  · rename_i hne
    cases h
    rw [Bool.or_eq_true, not_or, List.isEmpty_iff, List.isEmpty_iff] at hne
    refine ⟨⟨hne.1, hne.2, fun _ hc => List.mem_takeWhile_imp hc,
      fun _ hc => List.mem_takeWhile_imp hc⟩, ?_⟩
    rw [Reference.text, List.append_assoc, List.takeWhile_append_dropWhile,
      List.takeWhile_append_dropWhile]

/-- A call that is read is spelled by what is read. -/
theorem spelled_of_read? {cs : List Char} {k : RangeCall} (h : read? cs = some k) :
    ∃ gap₁ gap₂ gap₃ gap₄ rest, cs = k.innerText gap₁ gap₂ gap₃ gap₄ ++ ')' :: rest ∧
      k.first.WellRead ∧ k.last.WellRead := by
  rw [read?] at h
  simp only [Option.bind_eq_bind, Option.bind_eq_some_iff] at h
  obtain ⟨f, hf, rest₁, hopen, ⟨first, rest₂⟩, hfirst, rest₃, hcolon, ⟨last, rest₄⟩, hlast, rest₅,
    hclose, hk⟩ := h
  cases hk
  have hname : cs.takeWhile Char.isUpper = f.name.toList := by
    have hfind := List.find?_some hf
    rw [beq_iff_eq] at hfind
    rw [hfind, String.toList_ofList]
  -- the four places where white space is skipped
  obtain ⟨gap₁, hgap₁⟩ := exists_gap rest₁
  obtain ⟨gap₂, hgap₂⟩ := exists_gap rest₂
  obtain ⟨gap₃, hgap₃⟩ := exists_gap rest₃
  obtain ⟨gap₄, hgap₄⟩ := exists_gap rest₄
  obtain ⟨hreadFirst, hfirst⟩ := readReference?_eq_some hfirst
  obtain ⟨hreadLast, hlast⟩ := readReference?_eq_some hlast
  refine ⟨gap₁, gap₂, gap₃, gap₄, rest₅, ?_, hreadFirst, hreadLast⟩
  calc cs = f.name.toList ++ cs.dropWhile Char.isUpper := by
        rw [← hname, List.takeWhile_append_dropWhile]
    _ = f.name.toList ++ '(' :: rest₁ := by rw [expect?_eq_some hopen]
    _ = f.name.toList ++ '(' :: (gap₁.1 ++ (first.text ++ rest₂)) := by rw [← hfirst, ← hgap₁]
    _ = f.name.toList ++ '(' :: (gap₁.1 ++ (first.text ++ (gap₂.1 ++ ':' :: rest₃))) := by
        rw [← expect?_eq_some hcolon, ← hgap₂]
    _ = f.name.toList ++ '(' :: (gap₁.1 ++ (first.text ++ (gap₂.1 ++ ':' ::
          (gap₃.1 ++ (last.text ++ rest₄))))) := by rw [← hlast, ← hgap₃]
    _ = f.name.toList ++ '(' :: (gap₁.1 ++ (first.text ++ (gap₂.1 ++ ':' ::
          (gap₃.1 ++ (last.text ++ (gap₄.1 ++ ')' :: rest₅)))))) := by
        rw [← expect?_eq_some hclose, ← hgap₄]
    _ = _ := by simp only [innerText, List.append_assoc, List.cons_append]

theorem ne_close_of_wellRead {r : Reference} (h : r.WellRead) {c : Char} (hc : c ∈ r.text) :
    c ≠ ')' := by
  rintro rfl
  rcases List.mem_append.1 hc with hc | hc
  · exact absurd (h.isUpper _ hc) (by decide)
  · exact absurd (h.isDecimalDigit _ hc) (by decide)

/-- The closing parenthesis of a call is its only one. -/
theorem ne_close_of_mem_innerText {k : RangeCall} (hfirst : k.first.WellRead)
    (hlast : k.last.WellRead) {gap₁ gap₂ gap₃ gap₄ : Blanks} {c : Char}
    (h : c ∈ k.innerText gap₁ gap₂ gap₃ gap₄) : c ≠ ')' := by
  have hgap (gap : Blanks) {c : Char} (hc : c ∈ gap.1) : c ≠ ')' := by
    rintro rfl
    exact absurd (gap.2 _ hc) (by decide)
  simp only [innerText, List.mem_append, List.mem_cons] at h
  rcases h with h | rfl | h | h | h | rfl | h | h | h
  · rintro rfl
    exact absurd (Formula.isUpper_of_mem_name h) (by decide)
  · decide
  · exact hgap _ h
  · exact ne_close_of_wellRead hfirst h
  · exact hgap _ h
  · decide
  · exact hgap _ h
  · exact ne_close_of_wellRead hlast h
  · exact hgap _ h

/-- The calls of a text and the characters between them spell the text. -/
theorem spells_splitFrom (skip : Nat) (mayBegin : Bool) (cs : List Char) :
    Formula.Spells Spelled (splitFrom skip mayBegin cs) (cs.drop skip) := by
  -- induction on the text; what a call has read is skipped character by character
  induction cs generalizing skip mayBegin with
  | nil =>
    rw [List.drop_nil]
    exact .nil
  | cons c cs ih =>
    cases skip with
    | succ k => exact ih k mayBegin
    | zero =>
      rw [splitFrom, List.drop_zero]
      split
      · rename_i k hcall
        obtain ⟨gap₁, gap₂, gap₃, gap₄, rest, htext, hfirst, hlast⟩ : ∃ gap₁ gap₂ gap₃ gap₄ rest,
            c :: cs = k.innerText gap₁ gap₂ gap₃ gap₄ ++ ')' :: rest ∧
              k.first.WellRead ∧ k.last.WellRead := by
          split at hcall
          · exact spelled_of_read? hcall
          · cases hcall
        have hclose {d : Char} (hd : d ∈ k.innerText gap₁ gap₂ gap₃ gap₄) : d ≠ ')' :=
          ne_close_of_mem_innerText hfirst hlast hd
        cases hinner : k.innerText gap₁ gap₂ gap₃ gap₄ with
        | nil =>
          have hne : k.innerText gap₁ gap₂ gap₃ gap₄ ≠ [] :=
            List.append_ne_nil_of_right_ne_nil _ (List.cons_ne_nil _ _)
          exact absurd hinner hne
        | cons d inner =>
          rw [hinner, List.cons_append] at htext
          rw [hinner] at hclose
          obtain ⟨rfl, rfl⟩ := List.cons_eq_cons.1 htext
          -- the call ends at the first parenthesis that closes, since none stands inside
          have htake : (inner ++ ')' :: rest).takeWhile (· != ')') = inner :=
            Text.takeWhile_append (fun e he => bne_iff_ne.2 (hclose (List.mem_cons_of_mem _ he)))
              (by rintro e ⟨⟩; rfl)
          have hdrop : (inner ++ ')' :: rest).drop (inner.length + 1) = rest := by
            rw [List.drop_append, List.drop_of_length_le (by omega), List.nil_append,
              Nat.add_sub_cancel_left]
            rfl
          have hrest := ih (inner.length + 1) false
          rw [htake]
          rw [hdrop] at hrest
          have hspelled : k.Spelled ((c :: inner) ++ [')']) :=
            ⟨hfirst, hlast, gap₁, gap₂, gap₃, gap₄, by rw [hinner]⟩
          have hall := Formula.Spells.part hspelled hrest
          rwa [List.append_assoc, List.singleton_append] at hall
      · exact .plain (ih 0 _)

end RangeCall

namespace Formula

/-! ### The parts of a formula -/

/-- What the passes replace: a call, or a reference outside the calls. -/
inductive Part where
  | call (k : RangeCall)
  | name (r : Reference)
deriving DecidableEq

/-- A reference as a part of a formula. -/
def inFormula : Piece Reference → Piece Part
  | .plain c => .plain c
  | .part r => .part (.name r)

/-- The pieces of a formula whose calls have been found.  The letters and then the digits of a
possible reference, both of them last first, have been read already. -/
def cutFrom (letters digits : List Char) : List (Piece RangeCall) → List (Piece Part)
  | [] => (Reference.piecesOf letters digits).map inFormula
  | .part k :: ps =>
    (Reference.piecesOf letters digits).map inFormula ++ .part (.call k) :: cutFrom [] [] ps
  | .plain c :: ps =>
    if !letters.isEmpty && Text.isDecimalDigit c then cutFrom letters (c :: digits) ps
    else if c.isUpper && digits.isEmpty then cutFrom (c :: letters) [] ps
    else if c.isUpper then
      (Reference.piecesOf letters digits).map inFormula ++ cutFrom [c] [] ps
    else (Reference.piecesOf letters digits).map inFormula ++ .plain c :: cutFrom [] [] ps

/-- The pieces of a formula in upper case. -/
def cut (cs : List Char) : List (Piece Part) := cutFrom [] [] (RangeCall.split cs)

/-- The references of a formula, with a blank in the place of every call. -/
def besideCalls : Piece Part → Piece Reference
  | .plain c => .plain c
  | .part (.call _) => .plain ' '
  | .part (.name r) => .part r

theorem map_inFormula (ps : List (Piece Reference)) :
    (ps.map inFormula).map besideCalls = ps := by
  rw [List.map_map]
  refine (List.map_congr_left fun p _ => ?_).trans (List.map_id ps)
  cases p <;> rfl

theorem map_cutFrom (letters digits : List Char) (ps : List (Piece RangeCall)) :
    (cutFrom letters digits ps).map besideCalls =
      Reference.splitFrom letters digits (Piece.beside ps) := by
  induction ps generalizing letters digits with
  | nil => exact map_inFormula _
  | cons p ps ih =>
    cases p with
    | plain c =>
      rw [cutFrom, show Piece.beside (.plain c :: ps) = c :: Piece.beside ps from rfl,
        Reference.splitFrom]
      split_ifs
      · exact ih _ _
      · exact ih _ _
      · rw [List.map_append, map_inFormula, ih]
      · rw [List.map_append, map_inFormula, List.map_cons, ih]
        rfl
    | part k =>
      have hdigit : Text.isDecimalDigit ' ' = false := by decide
      rw [cutFrom, show Piece.beside (.part k :: ps) = ' ' :: Piece.beside ps from rfl,
        Reference.splitFrom, hdigit, Bool.and_false, if_neg Bool.false_ne_true,
        if_neg (show ¬ (' '.isUpper && digits.isEmpty) = true from Bool.false_ne_true),
        if_neg (by decide), List.map_append, map_inFormula, List.map_cons, ih]
      rfl

/-- A reference among the parts of a formula is one of the cells that the formula names. -/
theorem mem_namedBeside {body : List Char} {r : Reference}
    (hr : .name r ∈ Piece.parts (cut (Text.upperCase body))) {q : Position}
    (hq : Position.ofIdText? r.text = some q) : q ∈ namedBeside body := by
  have hparts : r ∈ Piece.parts (Reference.split (Piece.beside
      (RangeCall.split (Text.upperCase body)))) := by
    rw [Reference.split, ← map_cutFrom, Piece.parts, List.filterMap_map]
    rw [Piece.parts, List.mem_filterMap] at hr
    obtain ⟨p, hp, hpart⟩ := hr
    refine List.mem_filterMap.2 ⟨p, hp, ?_⟩
    cases p with
    | plain c => cases hpart
    | part a =>
      cases hpart
      rfl
  exact List.mem_filterMap.2 ⟨r, hparts, hq⟩

/-! ### How parts are spelled -/

/-- A part is spelled by these characters. -/
def Part.Spelled : Part → List Char → Prop
  | call k, here => k.Spelled here
  | name r, here => r.WellRead ∧ here = r.text

theorem spells_plain {β : Type} {spelled : β → List Char → Prop} {ps : List (Piece β)}
    {cs : List Char} (h : Spells spelled ps cs) (run : List Char) :
    Spells spelled (run.map .plain ++ ps) (run ++ cs) := by
  induction run with
  | nil => exact h
  | cons c run ih => exact .plain ih

/-- What has been read of a reference: capital letters, and digits only behind letters. -/
structure Partial (letters digits : List Char) : Prop where
  isUpper : ∀ c ∈ letters, c.isUpper = true
  isDecimalDigit : ∀ c ∈ digits, Text.isDecimalDigit c = true
  lettered : digits ≠ [] → letters ≠ []

theorem Partial.nil : Partial [] [] := ⟨by simp, by simp, fun h => absurd rfl h⟩

theorem Partial.letter {c : Char} (hc : c.isUpper = true) {letters : List Char}
    (h : ∀ c ∈ letters, c.isUpper = true) : Partial (c :: letters) [] :=
  ⟨List.forall_mem_cons.2 ⟨hc, h⟩, by simp, fun h => absurd rfl h⟩

theorem Partial.spells {letters digits : List Char} (h : Partial letters digits)
    {ps : List (Piece Part)} {cs : List Char} (hps : Spells Part.Spelled ps cs) :
    Spells Part.Spelled ((Reference.piecesOf letters digits).map inFormula ++ ps)
      (letters.reverse ++ (digits.reverse ++ cs)) := by
  rw [Reference.piecesOf]
  by_cases hdigits : digits.isEmpty = true
  · rw [if_pos hdigits, List.isEmpty_iff.1 hdigits, List.map_map]
    exact spells_plain hps letters.reverse
  · rw [if_neg hdigits, ← List.append_assoc]
    rw [List.isEmpty_iff] at hdigits
    refine .part ⟨⟨?_, ?_, ?_, ?_⟩, rfl⟩ hps
    · exact List.reverse_ne_nil_iff.2 (h.lettered hdigits)
    · exact List.reverse_ne_nil_iff.2 hdigits
    · exact fun c hc => h.isUpper c (List.mem_reverse.1 hc)
    · exact fun c hc => h.isDecimalDigit c (List.mem_reverse.1 hc)

theorem spells_cutFrom {ps : List (Piece RangeCall)} {cs : List Char}
    (h : Spells RangeCall.Spelled ps cs) {letters digits : List Char}
    (hread : Partial letters digits) :
    Spells Part.Spelled (cutFrom letters digits ps)
      (letters.reverse ++ (digits.reverse ++ cs)) := by
  induction h generalizing letters digits with
  | nil =>
    have hnil := hread.spells (Spells.nil : Spells Part.Spelled [] [])
    rwa [List.append_nil] at hnil
  | @plain c ps cs _ ih =>
    rw [cutFrom]
    -- the character goes on with the open name, or the name is spelled out before it
    split_ifs with hdigit hup hup'
    · rw [Bool.and_eq_true, Bool.not_eq_true', List.isEmpty_eq_false_iff] at hdigit
      have hmore : Partial letters (c :: digits) := ⟨hread.isUpper,
        List.forall_mem_cons.2 ⟨hdigit.2, hread.isDecimalDigit⟩, fun _ => hdigit.1⟩
      have hnext := ih hmore
      simpa only [List.reverse_cons, List.append_assoc, List.singleton_append] using hnext
    · rw [Bool.and_eq_true, List.isEmpty_iff] at hup
      obtain ⟨hup, rfl⟩ := hup
      have hnext := ih (Partial.letter hup hread.isUpper)
      simpa only [List.reverse_cons, List.reverse_nil, List.nil_append, List.append_assoc,
        List.singleton_append] using hnext
    · exact hread.spells (ih (Partial.letter hup' (by simp)))
    · exact hread.spells (.plain (ih .nil))
  | part hb _ ih => exact hread.spells (.part hb (ih .nil))

/-- The pieces of a text spell the text. -/
theorem spells_cut (cs : List Char) : Spells Part.Spelled (cut cs) cs :=
  spells_cutFrom (RangeCall.spells_splitFrom 0 true cs) .nil

/-! ### The pieces of a phrase -/

open Arithmetic

/-- The pieces that an operand is. -/
def Operand.pieces : Operand → List (Piece Part)
  | numeral n => n.text.map .plain
  | name n => [.part (.name n.upper)]
  | call k => [.part (.call k.upper)]

theorem isOperand_pieces (a : Operand) : IsOperand a.pieces := by
  cases a with
  | numeral n => exact .inl ⟨n, rfl⟩
  | name n => exact .inr ⟨_, rfl⟩
  | call k => exact .inr ⟨_, rfl⟩

theorem split_mark {c : Char} (h : isMark c = true) (cs : List Char) :
    RangeCall.split (c :: cs) = .plain c :: RangeCall.split cs := by
  have hup : c.isUpper = false := not_isUpper_of_closed (closed_cons h cs) c rfl
  rw [RangeCall.split, RangeCall.splitFrom_true (RangeCall.read?_of_not_isUpper hup cs),
    separates_of_isMark h]
  rfl

theorem closedPieces_split {cs : List Char} (h : Closed cs) :
    ClosedPieces (RangeCall.split cs) := by
  cases cs with
  | nil => exact fun _ hp => nomatch hp
  | cons c cs =>
    have hc := h c rfl
    rw [split_mark hc]
    exact closedPieces_cons hc _

/-- What has been read is complete before a mark. -/
theorem cutFrom_closed {ps : List (Piece RangeCall)} (h : ClosedPieces ps)
    (letters digits : List Char) : cutFrom letters digits ps =
      (Reference.piecesOf letters digits).map inFormula ++ cutFrom [] [] ps := by
  cases ps with
  | nil =>
    rw [cutFrom, cutFrom]
    exact (List.append_nil _).symm
  | cons p ps =>
    obtain ⟨c, hc, rfl⟩ := h p rfl
    have hclosed := closed_cons hc []
    have hup : c.isUpper = false := not_isUpper_of_closed hclosed c rfl
    have hdigit : Text.isDecimalDigit c = false := not_isDecimalDigit_of_closed hclosed c rfl
    rw [cutFrom, cutFrom, hup, hdigit]
    simp [Reference.piecesOf]

/-- Before a mark, the references of a text are those that it has by itself. -/
theorem cutFrom_plain {ps : List (Piece RangeCall)} (h : ClosedPieces ps) (cs : List Char)
    (letters digits : List Char) : cutFrom letters digits (cs.map .plain ++ ps) =
      (Reference.splitFrom letters digits cs).map inFormula ++ cutFrom [] [] ps := by
  induction cs generalizing letters digits with
  | nil =>
    rw [Reference.splitFrom]
    exact cutFrom_closed h letters digits
  | cons c cs ih =>
    rw [List.map_cons, List.cons_append, cutFrom, Reference.splitFrom]
    split_ifs
    · exact ih _ _
    · exact ih _ _
    · rw [ih, List.map_append, List.append_assoc]
    · rw [ih, List.map_append, List.append_assoc]
      rfl

theorem cut_operand (a : Operand) {cs : List Char} (hcs : Closed cs) :
    cut (a.upperText ++ cs) = a.pieces ++ cut cs := by
  have hclosed := closedPieces_split hcs
  -- numerals and names pass the search for calls unchanged, a call is one part of it
  cases a with
  | numeral n =>
    have hup : ∀ c ∈ n.text, c.isUpper = false := fun c hc =>
      not_isUpper_of_isArithmetic (isArithmetic_of_isNumeral (n.isNumeral c hc))
    have hsplit : Reference.splitFrom [] [] n.text = n.text.map .plain := by
      have hplain := Reference.split_plain_append hup []
      rwa [List.append_nil, show Reference.split [] = [] from rfl, List.append_nil] at hplain
    rw [Operand.upperText, cut, split_numeral n hcs, cutFrom_plain hclosed, hsplit, List.map_map]
    rfl
  | name n =>
    have hsplit : Reference.splitFrom [] [] n.upper.text = [.part n.upper] := by
      have hpart : Reference.split (n.upper.text ++ []) = .part n.upper :: Reference.split [] :=
        Reference.split_append n.isUpper_upper n.isDigit n.upper_letters_ne_nil n.numbered
          (fun c hc => absurd hc (Option.not_mem_none c))
          fun c hc => absurd hc (Option.not_mem_none c)
      rwa [List.append_nil] at hpart
    rw [Operand.upperText, cut, split_name n hcs, cutFrom_plain hclosed, hsplit]
    rfl
  | call k =>
    rw [Operand.upperText, List.append_assoc, List.singleton_append, cut,
      split_call k (not_isUpper_of_closed hcs)]
    rfl

/-- The pieces of a phrase are its marks and its operands. -/
theorem cut_phrase (s : Body) :
    cut (s.text Operand.upperText) = s.render (fun c => [.plain c]) Operand.pieces := by
  have hpass : Pass (fun c => [.plain c]) (fun cs => (pure (cut cs) : Id (List (Piece Part)))) := by
    refine ⟨rfl, fun c cs h => ?_⟩
    have hup : c.isUpper = false := not_isUpper_of_closed (closed_cons h cs) c rfl
    show cut (c :: cs) = .plain c :: cut cs
    rw [cut, split_mark h, cutFrom, hup]
    rfl
  have h := hpass.rewrites Operand.upperText Operand.pieces s
    (fun a _ cs hcs => cut_operand a hcs) closed_nil
  have h' : cut (s.text Operand.upperText ++ []) =
      s.render (fun c => [.plain c]) Operand.pieces ++ cut [] := h
  rwa [List.append_nil, show cut [] = [] from rfl, List.append_nil] at h'

end Formula

end Spreadsheet
