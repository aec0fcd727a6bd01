import Spreadsheet.Proofs.Arithmetic.Parsing

/-!
# Spreadsheet.Proofs.Arithmetic.Derivation — what the parser has read is derived

Behind every state that the parser reaches there is a text: for every level that is open, a sum that
waits for a term, a product that waits for a factor and the signs before that factor.  `Reading`
tells which texts these are.  Every step of the parser leads from a text of its state to a text of
the next one, so that a text that has been read to its end is that of a phrase, with the tree that
the parser has built.
-/

namespace Spreadsheet

namespace Arithmetic

variable {α : Type} {text : α → List Char} {leaf : α → Expr}

/-! ### The texts behind a state -/

/-- A text that leaves this much of a sum open. -/
def SumText (text : α → List Char) (leaf : α → Expr) : Pending → List Char → Prop
  | none, cs => cs = []
  | some (e, op), cs => op.isAdditive = true ∧
      ∃ s : Phrase α .expression, s.expr leaf = e ∧ s.text text ++ [op.symbol] = cs

/-- A text that leaves this much of a product open. -/
def ProductText (text : α → List Char) (leaf : α → Expr) : Pending → List Char → Prop
  | none, cs => cs = []
  | some (e, op), cs => op.isAdditive = false ∧
      ∃ s : Phrase α .term, s.expr leaf = e ∧ s.text text ++ [op.symbol] = cs

/-- Signs and blanks before a factor, among them this many minus signs. -/
inductive LeadText : Nat → List Char → Prop where
  | nil : LeadText 0 []
  | blank {n : Nat} {cs : List Char} {c : Char} (hc : Text.isBlank c = true) (h : LeadText n cs) :
      LeadText n (cs ++ [c])
  | plus {n : Nat} {cs : List Char} (h : LeadText n cs) : LeadText n (cs ++ ['+'])
  | minus {n : Nat} {cs : List Char} (h : LeadText n cs) : LeadText (n + 1) (cs ++ ['-'])

/-- A text that leaves a level open. -/
def LevelText (text : α → List Char) (leaf : α → Expr) (level : Level) (cs : List Char) : Prop :=
  ∃ sum product lead, SumText text leaf level.sum sum ∧
    ProductText text leaf level.product product ∧
    LeadText level.negations lead ∧ sum ++ (product ++ lead) = cs

/-- A text that leaves the parentheses of some levels open, the innermost first. -/
def OuterText (text : α → List Char) (leaf : α → Expr) : List Level → List Char → Prop
  | [], cs => cs = []
  | level :: outer, cs => ∃ before here, OuterText text leaf outer before ∧
      LevelText text leaf level here ∧ before ++ (here ++ ['(']) = cs

/-- A text behind which the parser may stand so. -/
def Reading (text : α → List Char) (leaf : α → Expr) : State → List Char → Prop
  | .before level outer, cs => ∃ before here, OuterText text leaf outer before ∧
      LevelText text leaf level here ∧ before ++ here = cs
  | .after term sum outer, cs => ∃ before first, ∃ s : Phrase α .term,
      OuterText text leaf outer before ∧ SumText text leaf sum first ∧ s.expr leaf = term ∧
        before ++ (first ++ s.text text) = cs

theorem reading_start : Reading text leaf .start [] :=
  ⟨[], [], rfl, ⟨[], [], [], rfl, rfl, .nil, rfl⟩, rfl⟩

/-! ### Phrases that are completed -/

/-- Signs and blanks before a factor make a factor with it. -/
theorem LeadText.factor {n : Nat} {lead : List Char} (h : LeadText n lead) (s : Phrase α .factor) :
    ∃ s' : Phrase α .factor, s'.text text = lead ++ s.text text ∧
      s'.expr leaf = Level.negated n (s.expr leaf) := by
  -- the sign next to the factor is taken first, then those before it
  induction h generalizing s with
  | nil => exact ⟨s, rfl, rfl⟩
  | @blank n cs c hc _ ih =>
    obtain ⟨s', htext, hexpr⟩ := ih (.spaced ⟨[c], by simpa using hc⟩ s ⟨[], by simp⟩)
    refine ⟨s', ?_, hexpr⟩
    rw [htext, Phrase.text_spaced, List.append_nil, List.append_assoc]
  | plus _ ih =>
    obtain ⟨s', htext, hexpr⟩ := ih (.plus s)
    refine ⟨s', ?_, hexpr⟩
    rw [htext, Phrase.text_plus, List.append_assoc]
    rfl
  | minus _ ih =>
    obtain ⟨s', htext, hexpr⟩ := ih (.minus s)
    refine ⟨s', ?_, ?_⟩
    · rw [htext, Phrase.text_minus, List.append_assoc]
      rfl
    · rw [hexpr, Phrase.expr, negated_neg]
      rfl

/-- A factor completes the term of a level. -/
theorem exists_term {level : Level} {product lead : List Char}
    (hproduct : ProductText text leaf level.product product)
    (hlead : LeadText level.negations lead) (s : Phrase α .factor) :
    ∃ t : Phrase α .term, t.text text = product ++ (lead ++ s.text text) ∧
      t.expr leaf = level.term (s.expr leaf) := by
  obtain ⟨s', htext, hexpr⟩ : ∃ s' : Phrase α .factor, s'.text text = lead ++ s.text text ∧
      s'.expr leaf = Level.negated level.negations (s.expr leaf) := hlead.factor s
  obtain ⟨sum, pending, negations⟩ := level
  -- without a pending product the factor is the term
  cases pending with
  | none =>
    obtain rfl : product = [] := hproduct
    exact ⟨.single s', by rw [Phrase.text_single, htext, List.nil_append], hexpr⟩
  | some pending =>
    obtain ⟨e, op⟩ := pending
    obtain ⟨hop, l, rfl, rfl⟩ := hproduct
    refine ⟨.product op hop l s', ?_, ?_⟩
    · rw [Phrase.text_product, htext, List.append_assoc]
      rfl
    · rw [Phrase.expr, hexpr]
      rfl

/-- A term completes a sum. -/
theorem exists_expression {sum : Pending} {first : List Char} (hsum : SumText text leaf sum first)
    (t : Phrase α .term) :
    ∃ s : Phrase α .expression, s.text text = first ++ t.text text ∧
      s.expr leaf = sum.complete (t.expr leaf) := by
  cases sum with
  | none =>
    obtain rfl : first = [] := hsum
    exact ⟨.alone t, rfl, rfl⟩
  | some pending =>
    obtain ⟨e, op⟩ := pending
    obtain ⟨hop, l, rfl, rfl⟩ := hsum
    refine ⟨.sum op hop l t, ?_, rfl⟩
    rw [Phrase.text_sum, List.append_assoc]
    rfl

/-! ### Steps of the parser -/

section Steps

variable {level : Level} {outer : List Level} {sum : Pending} {term : Expr} {cs : List Char}

/-- A factor is read where one is expected. -/
theorem Reading.operand (h : Reading text leaf (.before level outer) cs) (s : Phrase α .factor) :
    Reading text leaf (.operand level (s.expr leaf) outer) (cs ++ s.text text) := by
  obtain ⟨before, here, hbefore, ⟨first, product, lead, hsum, hproduct, hlead, rfl⟩, rfl⟩ := h
  obtain ⟨t, htext, hexpr⟩ := exists_term hproduct hlead s
  refine ⟨before, first, t, hbefore, hsum, hexpr, ?_⟩
  simp only [htext, List.append_assoc]

theorem Reading.blank {st : State} (h : Reading text leaf st cs) {c : Char}
    (hc : Text.isBlank c = true) : Reading text leaf st (cs ++ [c]) := by
  cases st with
  | before level outer =>
    obtain ⟨before, here, hbefore, ⟨first, product, lead, hsum, hproduct, hlead, rfl⟩, rfl⟩ := h
    exact ⟨before, _, hbefore, ⟨first, product, lead ++ [c], hsum, hproduct, hlead.blank hc, rfl⟩,
      by simp only [List.append_assoc]⟩
  | after term sum outer =>
    obtain ⟨before, first, t, hbefore, hsum, hexpr, rfl⟩ := h
    let t' : Phrase α .term := .spaced ⟨[], by simp⟩ t ⟨[c], by simpa using hc⟩
    refine ⟨before, first, t', hbefore, hsum, hexpr, ?_⟩
    rw [Phrase.text_spaced]
    simp only [List.nil_append, List.append_assoc]

theorem Reading.sign (h : Reading text leaf (.before level outer) cs) :
    Reading text leaf (.before level outer) (cs ++ ['+']) ∧
      Reading text leaf (.before { level with negations := level.negations + 1 } outer)
        (cs ++ ['-']) := by
  obtain ⟨before, here, hbefore, ⟨first, product, lead, hsum, hproduct, hlead, rfl⟩, rfl⟩ := h
  constructor
  · exact ⟨before, _, hbefore, ⟨first, product, _, hsum, hproduct, hlead.plus, rfl⟩,
      by simp only [List.append_assoc]⟩
  · exact ⟨before, _, hbefore, ⟨first, product, _, hsum, hproduct, hlead.minus, rfl⟩,
      by simp only [List.append_assoc]⟩

theorem Reading.opening (h : Reading text leaf (.before level outer) cs) :
    Reading text leaf (.before .start (level :: outer)) (cs ++ ['(']) := by
  obtain ⟨before, here, hbefore, hlevel, rfl⟩ := h
  exact ⟨_, [], ⟨before, here, hbefore, hlevel, rfl⟩, ⟨[], [], [], rfl, rfl, .nil, rfl⟩,
    by simp only [List.append_assoc, List.append_nil]⟩

theorem Reading.closing (h : Reading text leaf (.after term sum (level :: outer)) cs) :
    Reading text leaf (.operand level (sum.complete term) outer) (cs ++ [')']) := by
  obtain ⟨inside, first, t, ⟨before, here, hbefore, hlevel, rfl⟩, hsum, rfl, rfl⟩ := h
  obtain ⟨s, htext, hexpr⟩ := exists_expression hsum t
  have hopen : Reading text leaf (.before level outer) (before ++ here) :=
    ⟨before, here, hbefore, hlevel, rfl⟩
  have hgroup := hopen.operand (.group s)
  rw [Phrase.text_group, htext, Phrase.expr, hexpr] at hgroup
  simpa only [List.append_assoc, List.cons_append, List.nil_append] using hgroup

theorem Reading.additive (h : Reading text leaf (.after term sum outer) cs) {op : Operation}
    (hop : op.isAdditive = true) :
    Reading text leaf (.before ⟨some (sum.complete term, op), none, 0⟩ outer)
      (cs ++ [op.symbol]) := by
  obtain ⟨before, first, t, hbefore, hsum, rfl, rfl⟩ := h
  obtain ⟨s, htext, hexpr⟩ := exists_expression hsum t
  exact ⟨before, _, hbefore,
    ⟨s.text text ++ [op.symbol], [], [], ⟨hop, s, hexpr, rfl⟩, rfl, .nil, rfl⟩,
    by simp only [htext, List.append_assoc, List.append_nil]⟩

theorem Reading.multiplicative (h : Reading text leaf (.after term sum outer) cs) {op : Operation}
    (hop : op.isAdditive = false) :
    Reading text leaf (.before ⟨sum, some (term, op), 0⟩ outer) (cs ++ [op.symbol]) := by
  obtain ⟨before, first, t, hbefore, hsum, rfl, rfl⟩ := h
  exact ⟨before, _, hbefore, ⟨first, t.text text ++ [op.symbol], [], hsum, ⟨hop, t, rfl, rfl⟩, .nil,
    rfl⟩, by simp only [List.append_assoc, List.append_nil]⟩

/-- Every symbol leads from a text to a text. -/
theorem Reading.symbol {st st' : State} {c : Char} {t : Token} (hc : Token.symbol? c = some t)
    (hstep : State.step st t = .ok st') (h : Reading text leaf st cs) :
    Reading text leaf st' (cs ++ [c]) := by
  have hsymbol {op : Operation} (ht : t = .operator op) : c = op.symbol := by
    subst ht
    unfold Token.symbol? at hc
    split at hc <;> cases hc <;> rfl
  have hparenthesis : (t = .opening → c = '(') ∧ (t = .closing → c = ')') := by
    unfold Token.symbol? at hc
    split at hc <;> cases hc <;> simp
  -- before an operand only signs and an opening parenthesis are read, behind one the others
  cases st with
  | before level outer =>
    cases t with
    | number x => exact absurd hc (by unfold Token.symbol?; split <;> simp)
    | opening =>
      cases hstep
      rw [hparenthesis.1 rfl]
      exact h.opening
    | closing => cases hstep
    | operator op =>
      rw [hsymbol rfl]
      cases op with
      | add =>
        cases hstep
        exact h.sign.1
      | sub =>
        cases hstep
        exact h.sign.2
      | mul => cases hstep
      | div => cases hstep
  | after term sum outer =>
    cases t with
    | number x => cases outer <;> cases hstep
    | opening => cases outer <;> cases hstep
    | closing =>
      cases outer with
      | nil => cases hstep
      | cons level outer =>
        cases hstep
        rw [hparenthesis.2 rfl]
        exact h.closing
    | operator op =>
      rw [hsymbol rfl]
      cases hop : op.isAdditive with
      | true =>
        rw [State.step, hop] at hstep
        cases hstep
        exact h.additive hop
      | false =>
        rw [State.step, hop] at hstep
        cases hstep
        exact h.multiplicative hop

/-- What has been read to its end is a phrase with the tree that has been built. -/
theorem Reading.finish {st : State} {e : Expr} (hfinish : st.finish = .ok e)
    (h : Reading text leaf st cs) :
    ∃ s : Phrase α .expression, s.text text = cs ∧ s.expr leaf = e := by
  cases st with
  | before level outer => cases hfinish
  | after term sum outer =>
    cases outer with
    | cons level outer => cases hfinish
    | nil =>
      cases hfinish
      obtain ⟨before, first, t, rfl, hsum, rfl, rfl⟩ := h
      obtain ⟨s, htext, hexpr⟩ := exists_expression hsum t
      exact ⟨s, by rw [htext, List.nil_append], hexpr⟩

end Steps

end Arithmetic

end Spreadsheet
