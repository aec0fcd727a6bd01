import Spreadsheet.Proofs.Formula.Recursion
import Spreadsheet.Proofs.Formula.References

/-!
# Spreadsheet.Proofs.Formula.Dependence — the cells that a formula depends on

A formula mentions the cells that references outside its calls name, and the cells in the rectangles
of its calls.  The first pass neither makes nor destroys a name: a call stands behind a character that
ends every name that could name a cell, and its aggregate is written without capital letters.  So the
result of a formula depends on the values of the cells it mentions, and it is an error if one of those
it names outside its calls is.
-/

namespace Spreadsheet

/-! ### Pieces -/

namespace Piece

variable {α : Type}

/-- The parts among some pieces. -/
def parts (ps : List (Piece α)) : List α :=
  ps.filterMap fun
    | plain _ => none
    | part a => some a

/-- The text of pieces with a blank in the place of every part. -/
def beside (ps : List (Piece α)) : List Char :=
  ps.map fun
    | plain c => c
    | part _ => ' '

theorem replace_congr {f g : α → Except ErrorValue (List Char)} {ps : List (Piece α)}
    (h : ∀ a ∈ parts ps, f a = g a) : replace f ps = replace g ps := by
  induction ps with
  | nil => rfl
  | cons piece ps ih =>
    cases piece with
    | plain c => rw [replace, replace, ih h]
    | part a =>
      obtain ⟨ha, hps⟩ := List.forall_mem_cons.1 (show ∀ b ∈ a :: parts ps, f b = g b from h)
      rw [replace_part, replace_part, ha, ih hps]

/-- A part that has no replacement leaves none for the text. -/
theorem exists_error_of_replace {f : α → Except ErrorValue (List Char)} {ps : List (Piece α)} {a : α}
    (ha : a ∈ parts ps) {e : ErrorValue} (he : f a = .error e) :
    ∃ e, replace f ps = .error e := by
  induction ps with
  | nil => cases ha
  | cons piece ps ih =>
    cases piece with
    | plain c =>
      obtain ⟨e', he'⟩ := ih ha
      exact ⟨e', by rw [replace, he']; rfl⟩
    | part b =>
      rw [replace_part]
      cases hb : f b with
      | error e' => exact ⟨e', rfl⟩
      | ok here =>
        rcases List.mem_cons.1 (show a ∈ b :: parts ps from ha) with rfl | ha
        · rw [he] at hb
          cases hb
        · obtain ⟨e', he'⟩ := ih ha
          exact ⟨e', by rw [he']; rfl⟩

end Piece

/-! ### The cells that a text names -/

namespace Reference

/-- The cells that references among pieces name. -/
def named (ps : List (Piece Reference)) : List Position :=
  (Piece.parts ps).filterMap fun r => Position.ofIdText? r.text

theorem named_append (ps qs : List (Piece Reference)) : named (ps ++ qs) = named ps ++ named qs := by
  rw [named, Piece.parts, List.filterMap_append, List.filterMap_append]
  rfl

theorem named_part (r : Reference) (ps : List (Piece Reference)) :
    named (.part r :: ps) = (Position.ofIdText? r.text).toList ++ named ps := by
  rw [named, Piece.parts, List.filterMap_cons, List.filterMap_cons]
  cases Position.ofIdText? r.text <;> rfl

theorem named_plain (cs : List Char) (ps : List (Piece Reference)) :
    named (cs.map .plain ++ ps) = named ps := by
  induction cs with
  | nil => rfl
  | cons c cs ih => exact ih

/-- Letters and digits that have been read and can become no name of a cell: there are none, or a
digit among them is none of `0` to `9`. -/
def Idle (letters digits : List Char) : Prop :=
  letters = [] ∧ digits = [] ∨ ∃ d ∈ digits, 0x80 ≤ d.toNat

theorem idle_nil : Idle [] [] := .inl ⟨rfl, rfl⟩

theorem named_piecesOf {letters digits : List Char} (h : Idle letters digits) :
    named (piecesOf letters digits) = [] := by
  rcases h with ⟨rfl, rfl⟩ | ⟨d, hd, hlarge⟩
  · rfl
  · have hmem : d ∈ letters.reverse ++ digits.reverse :=
      List.mem_append_right _ (List.mem_reverse.2 hd)
    rw [piecesOf, if_neg (by rw [List.isEmpty_iff]; rintro rfl; cases hd), named_part, text,
      Position.ofIdText?_eq_none hmem hlarge]
    rfl

theorem split_letter {c : Char} (h : c.isUpper = true) (cs : List Char) :
    split (c :: cs) = splitFrom [c] [] cs := by
  rw [split, splitFrom, h]
  rfl

/-- What has been read in vain does not matter for the names that follow. -/
theorem named_splitFrom_idle {letters digits : List Char} (h : Idle letters digits)
    (cs : List Char) : named (splitFrom letters digits cs) = named (split cs) := by
  induction cs generalizing letters digits with
  | nil => rw [splitFrom, named_piecesOf h]; rfl
  | cons c cs ih =>
    rw [splitFrom]
    -- what is open has a digit that no name has, or there is nothing open
    split_ifs with hdigit hup hup'
    · rw [Bool.and_eq_true, Bool.not_eq_true', List.isEmpty_eq_false_iff] at hdigit
      obtain ⟨d, hd, hlarge⟩ := h.resolve_left fun hnil => hdigit.1 hnil.1
      have hup : c.isUpper = false := by
        rw [← Bool.not_eq_true]
        intro hup
        rw [Text.not_isDecimalDigit_of_isUpper hup] at hdigit
        exact Bool.false_ne_true hdigit.2
      rw [ih (.inr ⟨d, List.mem_cons_of_mem c hd, hlarge⟩), split_plain hup]
      rfl
    · rw [Bool.and_eq_true, List.isEmpty_iff] at hup
      obtain ⟨hup, rfl⟩ := hup
      obtain ⟨rfl, -⟩ := h.resolve_right (by rintro ⟨d, hd, -⟩; cases hd)
      rw [split_letter hup]
    · rw [named_append, named_piecesOf h, split_letter hup', List.nil_append]
    · rw [named_append, named_piecesOf h, split_plain (Bool.eq_false_of_not_eq_true hup')]
      rfl

/-- A text without capital letters, put behind what has been read in vain, names no cell. -/
theorem named_splitFrom_append {letters digits : List Char} (h : Idle letters digits)
    {run : List Char} (hrun : ∀ c ∈ run, c.isUpper = false) (cs : List Char) :
    named (splitFrom letters digits (run ++ cs)) = named (split cs) := by
  rw [named_splitFrom_idle h, split_plain_append hrun, named_plain]

/-- A digit behind which a call may begin is none of `0` to `9`. -/
theorem idle_digit {c : Char} (hc : RangeCall.separates c = true)
    (hdigit : Text.isDecimalDigit c = true) (letters digits : List Char) :
    Idle letters (c :: digits) := by
  refine .inr ⟨c, List.mem_cons_self, ?_⟩
  rw [RangeCall.separates, Bool.not_eq_true', Bool.or_eq_false_iff, Bool.or_eq_false_iff] at hc
  rw [Text.isDecimalDigit, hc.1.2, Bool.false_or, Bool.and_eq_true] at hdigit
  exact of_decide_eq_true hdigit.1

/-- Two texts that go on behind the same character name the same cells if they do behind every
state in which that character can leave the scan. -/
theorem named_splitFrom_cons {c : Char} {cs ds : List Char}
    (h : ∀ letters digits, (RangeCall.separates c = true → Idle letters digits) →
      named (splitFrom letters digits cs) = named (splitFrom letters digits ds))
    (letters digits : List Char) :
    named (splitFrom letters digits (c :: cs)) = named (splitFrom letters digits (c :: ds)) := by
  have hletter (hup : c.isUpper = true) : ¬ RangeCall.separates c = true := by
    rw [RangeCall.separates, hup]
    exact Bool.false_ne_true
  rw [splitFrom, splitFrom]
  split_ifs with hdigit hup hup'
  · rw [Bool.and_eq_true] at hdigit
    exact h _ _ fun hc => idle_digit hc hdigit.2 letters digits
  · rw [Bool.and_eq_true] at hup
    exact h _ _ fun hc => absurd hc (hletter hup.1)
  · rw [named_append, named_append, h _ _ fun hc => absurd hc (hletter hup')]
  · rw [named_append, named_append]
    exact congrArg (named (piecesOf letters digits) ++ ·) (h [] [] fun _ => idle_nil)

/-- Replacing the calls in a text leaves the names outside them. -/
theorem named_replace {f : RangeCall → Except ErrorValue (List Char)}
    (hf : ∀ call cs, f call = .ok cs → ∀ c ∈ cs, c.isUpper = false) (skip : Nat) (mayBegin : Bool)
    (cs : List Char) {letters digits : List Char} (hidle : mayBegin = true → Idle letters digits)
    {aggregated : List Char}
    (h : Piece.replace f (RangeCall.splitFrom skip mayBegin cs) = .ok aggregated) :
    named (splitFrom letters digits aggregated) =
      named (splitFrom letters digits (Piece.beside (RangeCall.splitFrom skip mayBegin cs))) := by
  induction cs generalizing skip mayBegin letters digits aggregated with
  | nil =>
    cases h
    rfl
  | cons c cs ih =>
    cases skip with
    | succ k => exact ih k mayBegin hidle h
    | zero =>
      rw [RangeCall.splitFrom] at h ⊢
      cases hcall : if mayBegin = true then RangeCall.read? (c :: cs) else none with
      | some call =>
        -- both texts go on behind something that ends all names
        rw [hcall] at h
        have hbegin : mayBegin = true := by
          by_contra hno
          rw [if_neg hno] at hcall
          cases hcall
        obtain ⟨here, hhere, h⟩ := exists_ok_of_bind_ok h
        obtain ⟨rest, hrest, h⟩ := exists_ok_of_bind_ok h
        cases h
        have hblank : ∀ c ∈ [' '], c.isUpper = false := fun c hc => by
          rw [List.mem_singleton.1 hc]
          rfl
        rw [named_splitFrom_append (hidle hbegin) (hf call here hhere)]
        refine Eq.trans ?_ (named_splitFrom_append (hidle hbegin) hblank _).symm
        exact ih _ false (fun hno => absurd hno Bool.false_ne_true) hrest
      | none =>
        rw [hcall] at h
        obtain ⟨rest, hrest, h⟩ := exists_ok_of_bind_ok h
        cases h
        exact named_splitFrom_cons (fun _ _ hidle => ih 0 _ hidle hrest) letters digits

end Reference

namespace Formula

/-! ### Aggregates in a text -/

theorem not_isUpper_spliced {x : Float} (h : x.isNaN = false) : ∀ c ∈ spliced x, c.isUpper = false := by
  cases hx : x.isFinite with
  | true =>
    have hall := all_isArithmetic_spliced x
    rw [hx, List.all_eq_true] at hall
    exact fun c hc => not_isUpper_of_isArithmetic (hall c hc)
  | false =>
    have hle : Binary64.magnitude x ≤ Binary64.infinity := by
      rw [← Nat.not_lt, ← Binary64.isNaN_iff, h]
      exact Bool.false_ne_true
    have hge : ¬ Binary64.magnitude x < Binary64.infinity := by
      rw [← Binary64.isFinite_iff, hx]
      exact Bool.false_ne_true
    -- only infinity is neither finite nor no number, and its word has small letters
    have hinf : Binary64.magnitude x = Binary64.infinity := by omega
    have htext : magnitudeText Binary64.infinity = ['i', 'n', 'f'] := by decide
    have hsmall : ∀ cs ∈ [['i', 'n', 'f'], ['(', '-', 'i', 'n', 'f', ')']],
        (cs.all fun c => !c.isUpper) = true := by decide
    have hword : spliced x ∈ [['i', 'n', 'f'], ['(', '-', 'i', 'n', 'f', ')']] := by
      rw [spliced_eq hle, hinf, htext, if_neg (show ¬ Binary64.infinity = 0 by decide)]
      split
      · exact List.mem_cons_of_mem _ List.mem_cons_self
      · exact List.mem_cons_self
    intro c hc
    have hnot := List.all_eq_true.1 (hsmall _ hword) c hc
    rwa [Bool.not_eq_true'] at hnot

theorem eq_number_of_number? {v : Value} {x : Float} (h : v.number? = some x) : v = .number x := by
  cases v with
  | number y => cases h; rfl
  | _ => cases h

theorem length_positions_lt {first last : Position}
    (hfirst : first.row < Word.size ∧ first.col < Word.size)
    (hlast : last.row < Word.size ∧ last.col < Word.size) :
    (Range.mk first last).rect.positions.length < 2 ^ 200 := by
  have hlength (b : Rect) : b.positions.length = b.rows.length * b.cols.length := by
    simp [Rect.positions, List.length_flatMap]
  have hrows : (Range.mk first last).rect.rows.length ≤ 2 ^ 64 := by
    simp only [Rect.rows, Range.rect, List.length_range', Word.size] at *
    omega
  have hcols : (Range.mk first last).rect.cols.length ≤ 2 ^ 64 := by
    simp only [Rect.cols, Range.rect, List.length_range', Word.size] at *
    omega
  calc (Range.mk first last).rect.positions.length
    _ ≤ 2 ^ 64 * 2 ^ 64 := hlength _ ▸ Nat.mul_le_mul hrows hcols
    _ < 2 ^ 200 := by decide

/-- Aggregates of finite numbers are written without capital letters. -/
theorem not_isUpper_callChars {dims : Dimensions} {valueOf : Position → Value}
    (hfinite : FiniteNumbers valueOf) {call : RangeCall} {cs : List Char}
    (h : callChars dims valueOf call = .ok cs) : ∀ c ∈ cs, c.isUpper = false := by
  rw [callChars] at h
  cases hfirst : Position.ofIdText? call.first.text with
  | none => rw [hfirst] at h; cases h
  | some first =>
    cases hlast : Position.ofIdText? call.last.text with
    | none => rw [hfirst, hlast] at h; cases h
    | some last =>
      rw [hfirst, hlast, aggregateBetween] at h
      split at h
      · cases h
        refine not_isUpper_spliced (Aggregate.isNaN_apply _ ?_ ?_)
        · intro x hx
          obtain ⟨q, -, hq⟩ := List.mem_filterMap.1 hx
          exact hfinite q x (eq_number_of_number? hq)
        · exact Nat.lt_of_le_of_lt (List.length_filterMap_le _ _)
            (length_positions_lt (Position.ofIdText?_lt hfirst) (Position.ofIdText?_lt hlast))
      · cases h

/-! ### What a formula mentions -/

/-- The calls in the text of a formula. -/
def callsOf (body : List Char) : List RangeCall :=
  Piece.parts (RangeCall.split (Text.upperCase body))

/-- The cells that the text of a formula names outside its calls. -/
def namedBeside (body : List Char) : List Position :=
  Reference.named (Reference.split (Piece.beside (RangeCall.split (Text.upperCase body))))

/-- A call covers the cells of the rectangle between its corners. -/
def Covers (call : RangeCall) (q : Position) : Prop :=
  ∃ first last, Position.ofIdText? call.first.text = some first ∧
    Position.ofIdText? call.last.text = some last ∧ (Range.mk first last).contains q = true

/-- A formula mentions the cells that it names outside its calls, and those that its calls cover. -/
def Mentions (body : List Char) (q : Position) : Prop :=
  q ∈ namedBeside body ∨ ∃ call ∈ callsOf body, Covers call q

section Mentions

variable {dims dims' : Dimensions} {valueOf valueOf' : Position → Value} {body : List Char}

theorem named_replaceCalls (hfinite : FiniteNumbers valueOf) {aggregated : List Char}
    (h : replaceCalls dims valueOf (Text.upperCase body) = .ok aggregated) :
    Reference.named (Reference.split aggregated) = namedBeside body :=
  Reference.named_replace (fun _ _ => not_isUpper_callChars hfinite) 0 true _
    (fun _ => Reference.idle_nil) h

theorem contains_of_corners {first last q : Position}
    (hin : (dims.contains first && dims.contains last) = true)
    (hq : (Range.mk first last).rect.contains q = true) : dims.contains q = true := by
  rw [Bool.and_eq_true, Dimensions.contains_iff, Dimensions.contains_iff] at hin
  rw [Rect.contains, Range.rect] at hq
  simp only [Bool.and_eq_true, decide_eq_true_eq] at hq
  rw [Dimensions.contains_iff]
  omega

theorem covers_corners {call : RangeCall} {first last : Position}
    (hfirst : Position.ofIdText? call.first.text = some first)
    (hlast : Position.ofIdText? call.last.text = some last) :
    Covers call first ∧ Covers call last := by
  refine ⟨⟨first, last, hfirst, hlast, ?_⟩, ⟨first, last, hfirst, hlast, ?_⟩⟩
  · simp [Range.contains, Rect.contains, Range.rect]
  · simp [Range.contains, Rect.contains, Range.rect]

theorem callChars_congr {call : RangeCall}
    (hdims : ∀ q, Covers call q → dims.contains q = dims'.contains q)
    (h : ∀ q, dims.contains q = true → Covers call q → valueOf q = valueOf' q) :
    callChars dims valueOf call = callChars dims' valueOf' call := by
  rw [callChars, callChars]
  cases hfirst : Position.ofIdText? call.first.text with
  | none => rfl
  | some first =>
    cases hlast : Position.ofIdText? call.last.text with
    | none => rfl
    | some last =>
      obtain ⟨hcovers, hcovers'⟩ := covers_corners hfirst hlast
      rw [aggregateBetween, aggregateBetween, ← hdims first hcovers, ← hdims last hcovers']
      split
      · rename_i hin
        -- with both corners on the sheet, so is every cell between them
        have hnumbers : ∀ q ∈ (Range.mk first last).rect.positions,
            (valueOf q).number? = (valueOf' q).number? := by
          intro q hq
          have hcontains := Rect.mem_positions.1 hq
          rw [h q (contains_of_corners hin hcontains) ⟨first, last, hfirst, hlast, hcontains⟩]
        rw [List.filterMap_congr hnumbers]
      · rfl

theorem referenceChars_congr {r : Reference}
    (hdims : ∀ q, Position.ofIdText? r.text = some q → dims.contains q = dims'.contains q)
    (h : ∀ q, dims.contains q = true → Position.ofIdText? r.text = some q → valueOf q = valueOf' q) :
    referenceChars dims valueOf r = referenceChars dims' valueOf' r := by
  rw [referenceChars, referenceChars]
  cases hr : Position.ofIdText? r.text with
  | none => rfl
  | some q =>
    rw [settledAt, settledAt, ← hdims q hr]
    split
    · rename_i hin
      rw [h q hin hr]
    · rfl

/-- The result of a formula depends on which of the cells that it mentions are on the sheet, and on
the values of those. -/
theorem bodyResult_congr (hfinite : FiniteNumbers valueOf)
    (hdims : ∀ q, Mentions body q → dims.contains q = dims'.contains q)
    (h : ∀ q, dims.contains q = true → Mentions body q → valueOf q = valueOf' q) :
    bodyResult dims valueOf body = bodyResult dims' valueOf' body := by
  have hcalls : replaceCalls dims valueOf (Text.upperCase body) =
      replaceCalls dims' valueOf' (Text.upperCase body) :=
    Piece.replace_congr fun call hcall => callChars_congr
      (fun q hq => hdims q (.inr ⟨call, hcall, hq⟩)) fun q hin hq => h q hin (.inr ⟨call, hcall, hq⟩)
  rw [bodyResult, bodyResult, ← hcalls]
  cases hagg : replaceCalls dims valueOf (Text.upperCase body) with
  | error e => rfl
  | ok aggregated =>
    -- the names left after the calls are those of the formula beside its calls
    have hrefs : replaceReferences dims valueOf aggregated =
        replaceReferences dims' valueOf' aggregated := by
      refine Piece.replace_congr fun r hr => ?_
      have hmentions : ∀ q, Position.ofIdText? r.text = some q → Mentions body q := fun q hq => by
        refine .inl ?_
        rw [← named_replaceCalls hfinite hagg]
        exact List.mem_filterMap.2 ⟨r, hr, hq⟩
      exact referenceChars_congr (fun q hq => hdims q (hmentions q hq))
        fun q hin hq => h q hin (hmentions q hq)
    show (replaceReferences dims valueOf aggregated >>= residualValue) = _
    rw [hrefs]
    rfl

/-- An error of a cell that a formula names outside its calls is an error of the formula. -/
theorem exists_error_bodyResult (hfinite : FiniteNumbers valueOf) {q : Position}
    (hq : q ∈ namedBeside body) (hin : dims.contains q = true) {e : ErrorValue}
    (he : valueOf q = .error e) : ∃ e, bodyResult dims valueOf body = .error e := by
  rw [bodyResult]
  cases hagg : replaceCalls dims valueOf (Text.upperCase body) with
  | error e' => exact ⟨e', rfl⟩
  | ok aggregated =>
    rw [← named_replaceCalls hfinite hagg] at hq
    obtain ⟨r, hr, hrq⟩ := List.mem_filterMap.1 hq
    have href : referenceChars dims valueOf r = .error e := by
      rw [referenceChars, hrq, settledAt, if_pos hin, he]
      rfl
    obtain ⟨e', he'⟩ := Piece.exists_error_of_replace hr href
    refine ⟨e', ?_⟩
    show (replaceReferences dims valueOf aggregated >>= residualValue) = _
    rw [replaceReferences, he']
    rfl

end Mentions

end Formula

end Spreadsheet
