import Spreadsheet.Proofs.Formula.Calls
import Spreadsheet.Proofs.Formula.Spliced

/-!
# Spreadsheet.Proofs.Formula.References — the second pass replaces the cell names

After the first pass the second one finds exactly the cell names of the phrase: numerals and marks
have no letters, and a number that has been put in place has no digits behind its letters, if it has
letters at all.
-/

namespace Spreadsheet

open Arithmetic

theorem Text.not_isDecimalDigit_of_isUpper {c : Char} (h : c.isUpper = true) :
    isDecimalDigit c = false := by
  have hdigit := not_isDigit_of_isUpper h
  rw [isUpper_iff] at h
  rw [isDecimalDigit, hdigit, Bool.false_or, Bool.and_eq_false_iff]
  exact .inl (decide_eq_false (by omega))

namespace Reference

theorem splitFrom_letters {run : List Char} (h : ∀ c ∈ run, c.isUpper = true)
    (letters cs : List Char) :
    splitFrom letters [] (run ++ cs) = splitFrom (run.reverse ++ letters) [] cs := by
  induction run generalizing letters with
  | nil => rfl
  | cons c run ih =>
    have hc := h c List.mem_cons_self
    rw [List.cons_append, splitFrom, Text.not_isDecimalDigit_of_isUpper hc, Bool.and_false,
      if_neg Bool.false_ne_true, hc, List.isEmpty_nil, Bool.and_self, if_pos rfl,
      ih fun d hd => h d (List.mem_cons_of_mem c hd), List.reverse_cons, List.append_assoc]
    rfl

theorem splitFrom_digits {run : List Char} (h : ∀ c ∈ run, c.isDigit = true) {letters : List Char}
    (hne : letters ≠ []) (digits cs : List Char) :
    splitFrom letters digits (run ++ cs) = splitFrom letters (run.reverse ++ digits) cs := by
  induction run generalizing digits with
  | nil => rfl
  | cons c run ih =>
    have hc := Text.isDecimalDigit_of_isDigit (h c List.mem_cons_self)
    rw [List.cons_append, splitFrom, List.isEmpty_eq_false_iff.2 hne, hc, Bool.not_false,
      Bool.and_self, if_pos rfl, ih fun d hd => h d (List.mem_cons_of_mem c hd), List.reverse_cons,
      List.append_assoc]
    rfl

/-- What has been read is complete where neither a letter nor a digit follows. -/
theorem splitFrom_end {cs : List Char} (hup : ∀ c ∈ cs.head?, c.isUpper = false)
    (hdigit : ∀ c ∈ cs.head?, Text.isDecimalDigit c = false) (letters digits : List Char) :
    splitFrom letters digits cs = piecesOf letters digits ++ split cs := by
  cases cs with
  | nil =>
    rw [splitFrom, split, splitFrom]
    exact (List.append_nil _).symm
  | cons c cs =>
    rw [splitFrom, split, splitFrom, hup c rfl, hdigit c rfl]
    simp only [Bool.and_false, Bool.false_and, Bool.false_eq_true, if_false]
    rfl

/-- Letters and then digits are one reference. -/
theorem split_append {r : Reference} (hl : ∀ c ∈ r.letters, c.isUpper = true)
    (hd : ∀ c ∈ r.digits, c.isDigit = true) (hlne : r.letters ≠ []) (hdne : r.digits ≠ [])
    {cs : List Char} (hup : ∀ c ∈ cs.head?, c.isUpper = false)
    (hdigit : ∀ c ∈ cs.head?, Text.isDecimalDigit c = false) :
    split (r.text ++ cs) = .part r :: split cs := by
  obtain ⟨letters, digits⟩ := r
  have hlne' : letters.reverse ≠ [] := List.reverse_ne_nil_iff.2 hlne
  have hdne' : digits.reverse.isEmpty = false := by
    rw [List.isEmpty_eq_false_iff]
    exact List.reverse_ne_nil_iff.2 hdne
  rw [split, text, List.append_assoc, splitFrom_letters hl, List.append_nil,
    splitFrom_digits hd hlne', List.append_nil, splitFrom_end hup hdigit, piecesOf, hdne']
  simp

theorem split_plain {c : Char} (h : c.isUpper = false) (cs : List Char) :
    split (c :: cs) = .plain c :: split cs := by
  rw [split, splitFrom, h]
  rfl

theorem split_plain_append {run : List Char} (h : ∀ c ∈ run, c.isUpper = false) (cs : List Char) :
    split (run ++ cs) = run.map .plain ++ split cs := by
  induction run with
  | nil => rfl
  | cons c run ih =>
    rw [List.cons_append, split_plain (h c List.mem_cons_self),
      ih fun d hd => h d (List.mem_cons_of_mem c hd)]
    rfl

end Reference

namespace Formula

theorem not_isUpper_of_isArithmetic {c : Char} (h : isArithmetic c = true) : c.isUpper = false := by
  simp only [isArithmetic, Bool.or_eq_true, beq_iff_eq] at h
  rcases h with (((((((h | h) | rfl) | rfl) | rfl) | rfl) | rfl) | rfl) | rfl
  · exact Text.not_isUpper_of_isDigit h
  · exact Text.not_isUpper_of_isBlank h
  all_goals rfl

theorem not_isDecimalDigit_of_closed {cs : List Char} (h : Closed cs) :
    ∀ c ∈ cs.head?, Text.isDecimalDigit c = false := by
  intro c hc
  rcases isMark_cases (h c hc) with hc | rfl | rfl | rfl | rfl | rfl | rfl
  · exact Text.not_isDecimalDigit_of_isBlank hc
  all_goals rfl

theorem split_spliced (x : Float) {cs : List Char} (hcs : Closed cs) :
    Reference.split (spliced x ++ cs) = (spliced x).map .plain ++ Reference.split cs := by
  cases hx : x.isFinite with
  | true =>
    have hall := all_isArithmetic_spliced x
    rw [hx, List.all_eq_true] at hall
    exact Reference.split_plain_append (fun c hc => not_isUpper_of_isArithmetic (hall c hc)) cs
  | false =>
    have hword := spliced_of_not_isFinite hx
    simp only [List.mem_cons, List.not_mem_nil, or_false] at hword
    rcases hword with h | h | h
    · -- the small letter in the middle keeps the other two apart
      have hsplit : Reference.split (['N', 'a', 'N'] ++ cs) =
          .plain 'N' :: .plain 'a' :: Reference.splitFrom ['N'] [] cs := rfl
      rw [h, hsplit, Reference.splitFrom_end (not_isUpper_of_closed hcs)
        (not_isDecimalDigit_of_closed hcs)]
      rfl
    · rw [h]
      rfl
    · rw [h]
      rfl

section References

variable (dims : Dimensions) (valueOf : Position → Value)

theorem pass_replaceReferences : Pass (fun c => [c]) (replaceReferences dims valueOf) where
  nil := rfl
  cons c cs h := by
    have hup : c.isUpper = false := not_isUpper_of_closed (closed_cons h cs) c rfl
    rw [replaceReferences, Reference.split_plain hup]
    exact Piece.replace_plain_append _ [c] _

theorem replaceReferences_operand (a : Reduced) {cs : List Char} (hcs : Closed cs) :
    replaceReferences dims valueOf (a.chars ++ cs) =
      a.settle dims valueOf >>= fun b => (b.chars ++ ·) <$> replaceReferences dims valueOf cs := by
  cases a with
  | numeral n =>
    have hup : ∀ c ∈ n.text, c.isUpper = false := fun c hc =>
      not_isUpper_of_isArithmetic (isArithmetic_of_isNumeral (n.isNumeral c hc))
    rw [Reduced.chars, replaceReferences, Reference.split_plain_append hup,
      Piece.replace_plain_append]
    rfl
  | name n =>
    rw [Reduced.chars, replaceReferences,
      Reference.split_append n.isUpper_upper n.isDigit n.upper_letters_ne_nil n.numbered
        (not_isUpper_of_closed hcs) (not_isDecimalDigit_of_closed hcs),
      Piece.replace_part, referenceChars, Reduced.settle, ofIdText?_upper]
    simp [replaceReferences]
  | number x =>
    rw [Reduced.chars, replaceReferences, split_spliced x hcs, Piece.replace_plain_append]
    rfl

/-- The second pass replaces the cell names of a formula, from left to right. -/
theorem replaceReferences_phrase (r : Phrase Reduced .expression) :
    replaceReferences dims valueOf (r.text Reduced.chars) =
      (fun t => t.text Settled.chars) <$> r.mapM (Reduced.settle dims valueOf) := by
  have h := (pass_replaceReferences dims valueOf).phrase (Reduced.settle dims valueOf)
    Reduced.chars Settled.chars r
    (fun a _ cs hcs => replaceReferences_operand dims valueOf a hcs) closed_nil
  rw [List.append_nil] at h
  rw [h, (pass_replaceReferences dims valueOf).nil]
  simp [Phrase.text]

/-- What the two passes leave of a formula is its phrase with every operand settled. -/
theorem bodyResult_bodyText (s : Body) :
    bodyResult dims valueOf (bodyText s) =
      settled dims valueOf s >>= fun t => residualValue (t.text Settled.chars) := by
  rw [bodyResult, settled, upperCase_body, replaceCalls_body, bind_assoc, bind_map_left]
  refine bind_congr fun r => ?_
  rw [replaceReferences_phrase, bind_map_left]

end References

end Formula

end Spreadsheet
