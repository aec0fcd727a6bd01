import Spreadsheet.Proofs.Formula.References

/-!
# Spreadsheet.Proofs.Formula.Agreement — substitution computes the meaning, unless it misreads

A formula is evaluated by putting values into its text and reading the result as arithmetic.  This
gives the meaning of its phrase except in two cases, in which the text that is put in place is not
taken for what it stands for: texts that are arithmetic themselves become part of the formula, and
an aggregate that is not finite is written in letters and taken for an unknown name.
-/

namespace Spreadsheet

namespace Formula

open Arithmetic

/-- A cell's text as an operand. -/
def Settled.IsText : Settled → Prop
  | numeral _ => False
  | number _ => False
  | text _ => True

/-- Whether an operand is written in the characters of arithmetic. -/
def Settled.IsPlain : Settled → Prop
  | numeral _ => True
  | number x => x.isFinite = true
  | text s => ∀ c ∈ s.toList, isArithmetic c = true

/-- The text of the formula does not say what its operands are: there are texts among them, but
everything is written as arithmetic, or there is none, but a number is not finite. -/
def Misread (u : Phrase Settled .expression) : Prop :=
  (∃ a ∈ u.operands, a.IsText) ∧ (∀ a ∈ u.operands, a.IsPlain) ∨
    (∀ a ∈ u.operands, ¬ a.IsText) ∧ ∃ a ∈ u.operands, ¬ a.IsPlain

/-- The number that an operand is, if it is no text. -/
def Settled.value : Settled → Float
  | numeral n => n.value
  | number x => x
  | text _ => 0

theorem isPlain_iff (a : Settled) : a.IsPlain ↔ a.chars.all isArithmetic = true := by
  cases a with
  | numeral n =>
    have h : ∀ c ∈ n.text, isArithmetic c = true := fun c hc =>
      isArithmetic_of_isNumeral (n.isNumeral c hc)
    exact ⟨fun _ => List.all_eq_true.2 h, fun _ => trivial⟩
  | number x => rw [Settled.IsPlain, Settled.chars, all_isArithmetic_spliced]
  | text s => rw [Settled.IsPlain, Settled.chars, List.all_eq_true]

theorem amount_of_not_isText {a : Settled} (h : ¬ a.IsText) : a.amount = .ok a.value := by
  cases a with
  | numeral n => rfl
  | number x => rfl
  | text s => exact absurd trivial h

theorem amount_of_isText {a : Settled} (h : a.IsText) : a.amount = .error .name := by
  cases a with
  | numeral n => exact absurd h id
  | number x => exact absurd h id
  | text s => rfl

theorem standsFor_chars {a : Settled} (htext : ¬ a.IsText) (hplain : a.IsPlain) :
    StandsFor a.chars a.value := by
  have hnumeral : ∀ n : Numeral, StandsFor n.text n.value := fun n =>
    standsFor_numeral n.filled n.isNumeral n.reads
  cases a with
  | numeral n => exact hnumeral n
  | number x =>
    obtain ⟨s, hchars, hvalue⟩ := exists_phrase_spliced hplain
    rw [Settled.chars, ← hchars]
    exact standsFor_text s (fun n _ => hnumeral n) (hvalue.trans (evaluate_number hplain).symm)
  | text s => exact absurd trivial htext

section Residual

variable {u : Phrase Settled .expression}

theorem residualValue_of_plain (h : ∀ a ∈ u.operands, a.IsPlain) :
    residualValue (u.text Settled.chars) =
      match Arithmetic.evaluate (u.text Settled.chars) with
      | .ok x => .ok (rounded x)
      | .error _ => .error .failed := by
  have hall : (u.text Settled.chars).all isArithmetic = true := by
    rw [Phrase.all_text fun c hc => isArithmetic_of_isMark hc]
    exact List.all_eq_true.2 fun a ha => (isPlain_iff a).1 (h a ha)
  exact if_pos hall

theorem residualValue_ne_name (h : ∀ a ∈ u.operands, a.IsPlain) :
    residualValue (u.text Settled.chars) ≠ .error .name := by
  rw [residualValue_of_plain h]
  cases Arithmetic.evaluate (u.text Settled.chars) <;> exact nofun

/-- Numbers that are written as arithmetic are read as the leaves of the tree. -/
theorem residualValue_of_numbers (hplain : ∀ a ∈ u.operands, a.IsPlain)
    (htext : ∀ a ∈ u.operands, ¬ a.IsText) :
    residualValue (u.text Settled.chars) = treeValue (u.expr fun a => .number a.value) := by
  have hvalue := evaluate_text u fun a ha => standsFor_chars (htext a ha) (hplain a ha)
  rw [residualValue_of_plain hplain, hvalue]
  rfl

theorem residualValue_of_not_plain (h : ∃ a ∈ u.operands, ¬ a.IsPlain) :
    residualValue (u.text Settled.chars) = .error .name := by
  obtain ⟨a, ha, hplain⟩ := h
  have hall : ¬ (u.text Settled.chars).all isArithmetic = true := by
    rw [Phrase.all_text fun c hc => isArithmetic_of_isMark hc, List.all_eq_true]
    exact fun hall => hplain ((isPlain_iff a).2 (hall a ha))
  rw [residualValue, if_neg hall]

theorem mapM_amount_of_text (h : ∃ a ∈ u.operands, a.IsText) :
    u.mapM Settled.amount = .error .name := by
  obtain ⟨a, ha, htext⟩ := h
  rcases Phrase.mapM_cases Settled.amount u with ⟨v, -, hok⟩ | ⟨e, he, b, -, hb⟩
  · obtain ⟨x, hx⟩ := hok a ha
    rw [amount_of_isText htext] at hx
    cases hx
  · cases b with
    | numeral n => cases hb
    | number x => cases hb
    | text s =>
      cases hb
      exact he

theorem mapM_amount_of_no_text (h : ∀ a ∈ u.operands, ¬ a.IsText) :
    u.mapM Settled.amount = .ok (u.map Settled.value) :=
  Phrase.mapM_eq_map u fun a ha => amount_of_not_isText (h a ha)

theorem treeValue_ne_name (e : Expr) : treeValue e ≠ .error .name := by
  rw [treeValue]
  cases e.evaluate <;> simp

/-- With all operands settled, the text has the value of the tree unless it is misread. -/
theorem residualValue_eq_iff (u : Phrase Settled .expression) :
    residualValue (u.text Settled.chars) =
        (u.mapM Settled.amount >>= fun numbers => treeValue (numbers.expr Expr.number)) ↔
      ¬ Misread u := by
  -- the tree fails for a text, and the replaced text for an operand that is not plain
  by_cases htext : ∃ a ∈ u.operands, a.IsText
  · rw [mapM_amount_of_text htext]
    by_cases hplain : ∃ a ∈ u.operands, ¬ a.IsPlain
    · rw [residualValue_of_not_plain hplain]
      refine iff_of_true rfl ?_
      rintro (⟨-, hall⟩ | ⟨hno, -⟩)
      · obtain ⟨a, ha, hnot⟩ := hplain
        exact hnot (hall a ha)
      · obtain ⟨a, ha, htext⟩ := htext
        exact hno a ha htext
    · have hall : ∀ a ∈ u.operands, a.IsPlain := fun a ha =>
        by_contra fun hnot => hplain ⟨a, ha, hnot⟩
      exact iff_of_false (residualValue_ne_name hall) (not_not_intro (.inl ⟨htext, hall⟩))
  · have hno : ∀ a ∈ u.operands, ¬ a.IsText := fun a ha h => htext ⟨a, ha, h⟩
    have htree : (u.mapM Settled.amount >>= fun numbers => treeValue (numbers.expr Expr.number)) =
        treeValue (u.expr fun a => .number a.value) := by
      rw [mapM_amount_of_no_text hno, ← Phrase.expr_map]
      rfl
    rw [htree]
    by_cases hplain : ∃ a ∈ u.operands, ¬ a.IsPlain
    · rw [residualValue_of_not_plain hplain]
      exact iff_of_false (treeValue_ne_name _).symm (not_not_intro (.inr ⟨hno, hplain⟩))
    · have hall : ∀ a ∈ u.operands, a.IsPlain := fun a ha =>
        by_contra fun hnot => hplain ⟨a, ha, hnot⟩
      refine iff_of_true (residualValue_of_numbers hall hno) ?_
      rintro (⟨h, -⟩ | ⟨-, h⟩)
      · exact htext h
      · exact hplain h

end Residual

/-! ### Evaluation -/

section Evaluate

variable {grid : Grid} {dims : Dimensions} {t : Trail} {p : Position} {raw : String}

theorem resultValue_inj {r r' : Except ErrorValue Float} : resultValue r = resultValue r' ↔ r = r' := by
  constructor
  · intro h
    cases r <;> cases r' <;> cases h <;> rfl
  · rintro rfl
    rfl

theorem bodyResult_eq_meaning_iff (valueOf : Position → Value) (s : Body) :
    bodyResult dims valueOf (bodyText s) = meaning dims valueOf s ↔
      ∀ u, settled dims valueOf s = .ok u → ¬ Misread u := by
  rw [bodyResult_bodyText, meaning]
  cases settled dims valueOf s with
  | error e => exact iff_of_true rfl nofun
  | ok u =>
    refine (residualValue_eq_iff u).trans ⟨?_, fun h => h u rfl⟩
    rintro h u' ⟨⟩
    exact h

/-- A formula has the value that its phrase means, other cells being evaluated with this cell on the
trail, exactly when its text is not misread once all operands are settled. -/
theorem evaluate_eq_meaning_iff {s : Body} (hroom : t.length < trailLimit) (hp : p ∉ t)
    (hraw : grid.get? p = some raw) (hbody : raw.toList = '=' :: bodyText s) :
    (evaluate grid dims p).run t =
        (resultValue (meaning dims (valueOn grid dims (t ++ [p])) s), t) ↔
      ∀ u, settled dims (valueOn grid dims (t ++ [p])) s = .ok u → ¬ Misread u := by
  rw [← bodyResult_eq_meaning_iff, ← resultValue_inj,
    ← valueOn_of_formula grid dims hroom hp hraw hbody, reads_evaluate grid dims t p,
    Prod.mk.injEq, and_iff_left rfl]

-- The sum is infinite, and the word for it is misread as a name.
example : valueAt (Grid.ofList [(⟨0, 0⟩, "1e308"), (⟨0, 1⟩, "1e308"), (⟨0, 2⟩, "=SUM(A1:B1)")])
    Dimensions.standard ⟨0, 2⟩ = .error .name := by
  decide +kernel

end Evaluate

/-! ### The formula `=A1*3` -/

section Tripled

/-- The name `A1`. -/
def nameA1 : CellName := ⟨['A'], ['1'], by simp, by simp, by simp, by simp⟩

/-- The numeral `3`. -/
def three : Numeral :=
  ⟨['3'], 3, List.cons_ne_nil _ _, fun _ h => List.mem_singleton.1 h ▸ rfl, by decide +kernel⟩

/-- The body of `=A1*3`. -/
def tripled : Body :=
  .alone (.product .mul rfl (.single (.operand (.name nameA1))) (.operand (.numeral three)))

/-- A sheet with this text in `A1` and the formula in `B1`. -/
def tripledSheet (text : String) : Grid := Grid.ofList [(⟨0, 0⟩, text), (⟨0, 1⟩, "=A1*3")]

theorem settled_tripled {valueOf : Position → Value} {x : Float} (h : valueOf ⟨0, 0⟩ = .number x) :
    settled Dimensions.standard valueOf tripled =
      .ok (.alone (.product .mul rfl (.single (.operand (.number x)))
        (.operand (.numeral three)))) := by
  have hcell : settledAt Dimensions.standard valueOf nameA1.position? = .ok (.number x) := by
    rw [show nameA1.position? = some ⟨0, 0⟩ by decide, settledAt, if_pos (by decide), h]
    rfl
  have hcalls : settled Dimensions.standard valueOf tripled =
      (Phrase.alone (.product .mul rfl (.single (.operand (.name nameA1)))
        (.operand (.numeral three)))).mapM (Reduced.settle Dimensions.standard valueOf) := rfl
  simp only [hcalls, Phrase.mapM, Reduced.settle, hcell]
  rfl

/-- Two is tripled to six. -/
theorem evaluate_eq_meaning_tripled_two :
    (evaluate (tripledSheet "2") Dimensions.standard ⟨0, 1⟩).run [] =
        (resultValue (meaning Dimensions.standard
          (valueOn (tripledSheet "2") Dimensions.standard [⟨0, 1⟩]) tripled), []) ∧
      valueAt (tripledSheet "2") Dimensions.standard ⟨0, 1⟩ = .number 6 := by
  have hvalue : valueOn (tripledSheet "2") Dimensions.standard ([] ++ [⟨0, 1⟩]) ⟨0, 0⟩ =
      .number 2 := by decide +kernel
  have hnumbers : ∀ a ∈ [Settled.number 2, .numeral three], ¬ a.IsText ∧ a.IsPlain := by
    have htwo : Float.isFinite 2 = true := by decide +kernel
    simpa [Settled.IsText, Settled.IsPlain] using htwo
  refine ⟨(evaluate_eq_meaning_iff (s := tripled) (by decide) (by decide)
    (show (tripledSheet "2").get? ⟨0, 1⟩ = some "=A1*3" by decide +kernel)
    (by decide)).2 ?_, by decide +kernel⟩
  intro u hu
  rw [settled_tripled hvalue] at hu
  cases hu
  rintro (⟨⟨a, ha, htext⟩, -⟩ | ⟨-, a, ha, hplain⟩)
  · exact (hnumbers a ha).1 htext
  · exact hplain (hnumbers a ha).2

/-- The text `1+2` is no number, but put before `*3` it makes seven. -/
theorem tripled_sum_misread :
    valueAt (tripledSheet "1+2") Dimensions.standard ⟨0, 1⟩ = .number 7 ∧
      resultValue (meaning Dimensions.standard
        (valueOn (tripledSheet "1+2") Dimensions.standard [⟨0, 1⟩]) tripled) = .error .name := by
  constructor <;> decide +kernel

end Tripled

end Formula

end Spreadsheet
