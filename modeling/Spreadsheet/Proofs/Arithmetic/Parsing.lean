import Mathlib.Tactic.Choose
import Spreadsheet.Proofs.Arithmetic.Phrase
import Spreadsheet.Proofs.Text.Classes

/-!
# Spreadsheet.Proofs.Arithmetic.Parsing — the parser finds the tree of a phrase

`Parses c ts e` says what the parser makes of the tokens `ts` of a phrase of kind `c` that denotes
`e`, whatever stands around them: a factor is read where an operand is expected, a term where a sum
may go on, an expression behind an opening parenthesis or at the start.  The tokens of a phrase parse
as its tree when those of its operands do, and the tokens of a text are those of the phrase it is the
text of.
-/

namespace Spreadsheet

namespace Arithmetic

/-- The tokens that a mark is; blanks are none. -/
def tokensOfMark (c : Char) : List Token :=
  if Text.isBlank c then [] else (Token.symbol? c).toList

theorem tokensOfMark_symbol (op : Operation) : tokensOfMark op.symbol = [.operator op] := by
  cases op <;> rfl

/-! ### From tokens to trees -/

/-- How the parser reads the tokens of a phrase. -/
def Parses : Category → List Token → Expr → Prop
  | .factor, ts, e => ∀ level outer rest,
    (ts ++ rest).foldlM State.step (State.before level outer) =
      rest.foldlM State.step (State.operand level e outer)
  | .term, ts, e => ∀ sum outer rest,
    (ts ++ rest).foldlM State.step (State.before ⟨sum, none, 0⟩ outer) =
      rest.foldlM State.step (State.after e sum outer)
  | .expression, ts, e => ∃ term sum, sum.complete term = e ∧ ∀ outer rest,
    (ts ++ rest).foldlM State.step (State.before .start outer) =
      rest.foldlM State.step (State.after term sum outer)

theorem negated_neg (n : Nat) (e : Expr) : Level.negated n (.neg e) = .neg (Level.negated n e) := by
  induction n with
  | zero => rfl
  | succ n ih => rw [Level.negated, ih, Level.negated]

theorem operand_neg (level : Level) (e : Expr) (outer : List Level) :
    State.operand { level with negations := level.negations + 1 } e outer =
      State.operand level (.neg e) outer := by
  simp only [State.operand, Level.term, Level.negated, negated_neg]

theorem parses_number (x : Float) : Parses .factor [.number x] (.number x) := fun _ _ _ => rfl

theorem parses_minus {ts : List Token} {e : Expr} (h : Parses .factor ts e) :
    Parses .factor (.operator .sub :: ts) (.neg e) := by
  intro level outer rest
  rw [← operand_neg, ← h]
  rfl

theorem parses_plus {ts : List Token} {e : Expr} (h : Parses .factor ts e) :
    Parses .factor (.operator .add :: ts) e := by
  intro level outer rest
  rw [← h]
  rfl

theorem parses_group {ts : List Token} {e : Expr} (h : Parses .expression ts e) :
    Parses .factor (.opening :: (ts ++ [.closing])) e := by
  obtain ⟨term, sum, rfl, hread⟩ := h
  intro level outer rest
  have := hread (level :: outer) (.closing :: rest)
  rw [List.cons_append, List.append_assoc]
  exact this

theorem parses_product {op : Operation} (hop : op.isAdditive = false) {ts us : List Token}
    {l r : Expr} (hl : Parses .term ts l) (hr : Parses .factor us r) :
    Parses .term (ts ++ .operator op :: us) (.binary op l r) := by
  intro sum outer rest
  have hstep : State.step (.after l sum outer) (.operator op) =
      .ok (.before ⟨sum, some (l, op), 0⟩ outer) := by
    rw [State.step, hop]
    rfl
  rw [List.append_assoc, hl, List.cons_append, List.foldlM_cons, hstep]
  exact hr ⟨sum, some (l, op), 0⟩ outer rest

theorem parses_sum {op : Operation} (hop : op.isAdditive = true) {ts us : List Token}
    {l r : Expr} (hl : Parses .expression ts l) (hr : Parses .term us r) :
    Parses .expression (ts ++ .operator op :: us) (.binary op l r) := by
  obtain ⟨term, sum, rfl, hread⟩ := hl
  refine ⟨r, some (sum.complete term, op), rfl, fun outer rest => ?_⟩
  have hstep : State.step (.after term sum outer) (.operator op) =
      .ok (.before ⟨some (sum.complete term, op), none, 0⟩ outer) := by
    rw [State.step, hop]
    rfl
  rw [List.append_assoc, hread, List.cons_append, List.foldlM_cons, hstep]
  exact hr (some (sum.complete term, op)) outer rest

variable {α : Type}

/-- The tokens of a phrase parse as the tree that it denotes. -/
theorem parses_phrase {spell : α → List Token} {leaf : α → Expr} {c : Category} (s : Phrase α c)
    (h : ∀ a ∈ s.operands, Parses .factor (spell a) (leaf a)) :
    Parses c (s.render tokensOfMark spell) (s.expr leaf) := by
  induction s with
  | operand a => exact h a List.mem_cons_self
  | group s ih => exact parses_group (ih h)
  | plus s ih => exact parses_plus (ih h)
  | minus s ih => exact parses_minus (ih h)
  | single s ih => exact fun sum outer rest => ih h ⟨sum, none, 0⟩ outer rest
  | product op hop l r ihl ihr =>
    have h' := List.forall_mem_append.1 h
    rw [Phrase.render, tokensOfMark_symbol, List.append_assoc]
    exact parses_product hop (ihl h'.1) (ihr h'.2)
  | alone s ih => exact ⟨s.expr leaf, none, rfl, ih h none⟩
  | sum op hop l r ihl ihr =>
    have h' := List.forall_mem_append.1 h
    rw [Phrase.render, tokensOfMark_symbol, List.append_assoc]
    exact parses_sum hop (ihl h'.1) (ihr h'.2)
  | spaced before s after ih =>
    have hblanks : ∀ b : Blanks, b.1.flatMap tokensOfMark = [] := fun b =>
      List.flatMap_eq_nil_iff.2 fun c hc => if_pos (b.2 c hc)
    rw [Phrase.render, hblanks, hblanks, List.nil_append, List.append_nil]
    exact ih h

theorem parseTokens_of_parses {ts : List Token} {e : Expr} (h : Parses .expression ts e) :
    parseTokens ts = .ok e := by
  obtain ⟨term, sum, rfl, hread⟩ := h
  have hrun : ts.foldlM State.step State.start = .ok (.after term sum []) := by
    have := hread [] []
    rwa [List.append_nil] at this
  have hne : ts.isEmpty = false := by
    cases ts with
    | nil => cases hrun
    | cons t ts => rfl
  rw [parseTokens, hne, hrun]
  rfl

/-! ### From texts to tokens -/

theorem isNumeral_of_isMark {c : Char} (h : isMark c = true) : Token.isNumeral c = false := by
  rcases isMark_cases h with h | rfl | rfl | rfl | rfl | rfl | rfl
  · rw [Token.isNumeral, Text.not_isDigit_of_isBlank h, Bool.false_or, beq_eq_false_iff_ne]
    exact Text.ne_of_isBlank h rfl
  all_goals rfl

theorem ofChar_of_isMark {c : Char} (h : isMark c = true) :
    Token.ofChar c = .ok (tokensOfMark c) := by
  rcases isMark_cases h with h | rfl | rfl | rfl | rfl | rfl | rfl
  · rw [Token.ofChar, tokensOfMark, if_pos h, if_pos h]
  all_goals rfl

theorem pass_scan : Pass tokensOfMark Token.scan where
  nil := rfl
  cons c cs h := by
    rw [Token.scan, Token.scanFrom, isNumeral_of_isMark h, if_neg Bool.false_ne_true,
      ofChar_of_isMark h]
    rfl

theorem scanFrom_append {ds : List Char} (h : ∀ c ∈ ds, Token.isNumeral c = true)
    (run cs : List Char) : Token.scanFrom run (ds ++ cs) = Token.scanFrom (ds.reverse ++ run) cs := by
  induction ds generalizing run with
  | nil => rfl
  | cons d ds ih =>
    rw [List.cons_append, Token.scanFrom, h d List.mem_cons_self, if_pos rfl,
      ih fun c hc => h c (List.mem_cons_of_mem d hc), List.reverse_cons, List.append_assoc]
    rfl

/-- A run of numerals that reads as a number is its token. -/
theorem scan_numeral {ds : List Char} {x : Float} (hne : ds ≠ [])
    (h : ∀ c ∈ ds, Token.isNumeral c = true) (hx : readNumber? ds = some x) {cs : List Char}
    (hcs : Closed cs) : Token.scan (ds ++ cs) = ([Token.number x] ++ ·) <$> Token.scan cs := by
  have hrun : Token.ofRun ds = .ok [.number x] := by
    cases ds with
    | nil => exact absurd rfl hne
    | cons d ds => rw [Token.ofRun, hx]
  rw [Token.scan, scanFrom_append h, List.append_nil]
  cases cs with
  | nil =>
    rw [Token.scanFrom, List.reverse_reverse, hrun]
    rfl
  | cons c cs =>
    have hc := isNumeral_of_isMark (hcs c rfl)
    rw [Token.scanFrom, hc, if_neg Bool.false_ne_true, List.reverse_reverse, hrun, Token.scan,
      Token.scanFrom, hc, if_neg Bool.false_ne_true]
    simp only [Token.ofRun, List.reverse_nil, bind_pure_comp, map_bind, Functor.map_map]
    simp only [List.append_assoc]
    rfl

/-! ### The value of a text -/

/-- Wherever an operand may stand, these characters have this value. -/
def StandsFor (cs : List Char) (x : Float) : Prop :=
  ∃ ts e, (∀ rest, Closed rest → Token.scan (cs ++ rest) = (ts ++ ·) <$> Token.scan rest) ∧
    Parses .factor ts e ∧ e.evaluate = (Expr.number x).evaluate

theorem standsFor_numeral {ds : List Char} {x : Float} (hne : ds ≠ [])
    (h : ∀ c ∈ ds, Token.isNumeral c = true) (hx : readNumber? ds = some x) : StandsFor ds x :=
  ⟨[.number x], .number x, fun _ hrest => scan_numeral hne h hx hrest, parses_number x, rfl⟩

section Value

variable {chars : α → List Char} {value : α → Float}

theorem exists_tokens {c : Category} (s : Phrase α c)
    (h : ∀ a ∈ s.operands, StandsFor (chars a) (value a)) :
    ∃ ts e, (∀ rest, Closed rest →
        Token.scan (s.text chars ++ rest) = (ts ++ ·) <$> Token.scan rest) ∧
      Parses c ts e ∧ e.evaluate = (s.expr fun a => .number (value a)).evaluate := by
  have hexpr : Nonempty Expr := ⟨.number 0⟩
  choose! tokens leaf hscan hparses hvalue using h
  exact ⟨s.render tokensOfMark tokens, s.expr leaf,
    fun rest hrest => pass_scan.rewrites chars tokens s hscan hrest,
    parses_phrase s hparses, Phrase.evaluate_expr_congr s hvalue⟩

theorem standsFor_text (s : Phrase α .factor)
    (h : ∀ a ∈ s.operands, StandsFor (chars a) (value a)) {x : Float}
    (hx : (s.expr fun a => .number (value a)).evaluate = (Expr.number x).evaluate) :
    StandsFor (s.text chars) x := by
  obtain ⟨ts, e, hscan, hparses, hvalue⟩ := exists_tokens s h
  exact ⟨ts, e, hscan, hparses, hvalue.trans hx⟩

/-- The value of an arithmetic text is that of its tree. -/
theorem evaluate_text (s : Phrase α .expression)
    (h : ∀ a ∈ s.operands, StandsFor (chars a) (value a)) :
    evaluate (s.text chars) = (s.expr fun a => .number (value a)).evaluate := by
  obtain ⟨ts, e, hscan, hparses, hvalue⟩ := exists_tokens s h
  have htokens := hscan [] closed_nil
  rw [List.append_nil, pass_scan.nil, map_pure, List.append_nil] at htokens
  rw [evaluate, parse, htokens, ← hvalue, pure_bind, parseTokens_of_parses hparses]
  rfl

end Value

end Arithmetic

end Spreadsheet
