import Spreadsheet.Proofs.Formula.Agreement
import Spreadsheet.Proofs.Formula.Dependence
import Spreadsheet.Proofs.Grid.Entries

/-!
# Spreadsheet.Proofs.Formula.TextOperands — formulas that name cells with texts

The text of a cell is put into every formula that names the cell, and a formula is an unknown name
if anything in it is not written in the characters of arithmetic once all is replaced.  So a text
with another character makes an error of every formula that names it, and a text without one does
not: by itself it is a formula.
-/

namespace Spreadsheet

theorem Piece.mem_of_replace {α : Type} {f : α → Except ErrorValue (List Char)}
    {ps : List (Piece α)} {a : α} {here out : List Char} (ha : a ∈ parts ps) (hf : f a = .ok here)
    (h : replace f ps = .ok out) {c : Char} (hc : c ∈ here) : c ∈ out := by
  induction ps generalizing out with
  | nil => cases ha
  | cons piece ps ih =>
    cases piece with
    | plain d =>
      obtain ⟨rest, hrest, h⟩ := exists_ok_of_bind_ok h
      cases h
      exact List.mem_cons_of_mem d (ih ha hrest)
    | part b =>
      obtain ⟨first, hfirst, h⟩ := exists_ok_of_bind_ok h
      obtain ⟨rest, hrest, h⟩ := exists_ok_of_bind_ok h
      cases h
      rcases List.mem_cons.1 (show a ∈ b :: parts ps from ha) with rfl | ha
      · rw [hf] at hfirst
        cases hfirst
        exact List.mem_append_left rest hc
      · exact List.mem_append_right first (ih ha hrest)

namespace Formula

/-! ### What is left of a formula -/

/-- The text that the two passes leave of a formula. -/
def residualOf (dims : Dimensions) (valueOf : Position → Value) (body : List Char) :
    Except ErrorValue (List Char) :=
  replaceCalls dims valueOf (Text.upperCase body) >>= replaceReferences dims valueOf

section Residual

variable {dims : Dimensions} {valueOf : Position → Value} {body : List Char}

theorem bodyResult_eq_bind : bodyResult dims valueOf body =
    residualOf dims valueOf body >>= residualValue := by
  rw [bodyResult, residualOf, bind_assoc]

theorem residualValue_of_not_isArithmetic {cs : List Char} {c : Char} (hc : c ∈ cs)
    (h : isArithmetic c = false) : residualValue cs = .error .name := by
  rw [residualValue, if_neg]
  rw [List.all_eq_true]
  intro hall
  rw [hall c hc] at h
  cases h

theorem residualValue_ne_name_of_all {cs : List Char} (h : cs.all isArithmetic = true) :
    residualValue cs ≠ .error .name := by
  rw [residualValue, if_pos h]
  cases Arithmetic.evaluate cs <;> simp

/-- The text of a cell that a formula names outside its calls is part of what is left of it. -/
theorem mem_residualOf (hfinite : FiniteNumbers valueOf) {q : Position} (hq : q ∈ namedBeside body)
    (hin : dims.contains q = true) {s : String} (htext : valueOf q = .text s) {residual : List Char}
    (h : residualOf dims valueOf body = .ok residual) {c : Char} (hc : c ∈ s.toList) :
    c ∈ residual := by
  obtain ⟨aggregated, hagg, h⟩ := exists_ok_of_bind_ok h
  rw [← named_replaceCalls hfinite hagg] at hq
  obtain ⟨r, hr, hrq⟩ := List.mem_filterMap.1 hq
  have href : referenceChars dims valueOf r = .ok s.toList := by
    rw [referenceChars, hrq, settledAt, if_pos hin, htext]
    rfl
  exact Piece.mem_of_replace hr href h hc

end Residual

/-! ### Texts as operands -/

section Texts

variable {grid : Grid} {dims : Dimensions}

/-- A text is the value of its cell on every trail. -/
theorem valueOn_of_text {p : Position} {s : String} {t : Trail}
    (h : valueOn grid dims t p = .text s) (t' : Trail) : valueOn grid dims t' p = .text s := by
  rw [valueOn_eq] at h ⊢
  cases hformula : grid.formula? p with
  | none =>
    rw [hformula] at h
    exact h
  | some body =>
    rw [hformula] at h
    dsimp only at h
    split_ifs at h
    cases hresult : bodyResult dims (valueOn grid dims (t ++ [p])) body <;> rw [hresult] at h <;>
      cases h

theorem valueAt_of_formula {p : Position} {body : List Char} (h : grid.formula? p = some body) :
    valueAt grid dims p = resultValue (bodyResult dims (valueOn grid dims [p]) body) := by
  obtain ⟨raw, hraw, hbody⟩ := Grid.formula?_eq_some_iff.1 h
  exact valueOn_of_formula grid dims (by decide) List.not_mem_nil hraw hbody

/-- Everything that the formula in a cell names or calls can be replaced. -/
def NothingFails (grid : Grid) (dims : Dimensions) (p : Position) (body : List Char) : Prop :=
  ∃ residual, residualOf dims (valueOn grid dims [p]) body = .ok residual

/-- On every sheet, a formula that names a cell with this text outside its calls is an error, and an
unknown name if nothing else fails. -/
def StaysText (s : String) : Prop :=
  ∀ (grid : Grid) (dims : Dimensions) (p q : Position) (body : List Char),
    grid.formula? p = some body → q ∈ namedBeside body → dims.contains q = true →
    valueAt grid dims q = .text s →
    ∃ e, valueAt grid dims p = .error e ∧ (NothingFails grid dims p body → e = .name)

theorem staysText_of_not_isArithmetic {s : String} {c : Char} (hc : c ∈ s.toList)
    (hchar : isArithmetic c = false) : StaysText s := by
  intro grid dims p q body hbody hq hin htext
  rw [valueAt_of_formula hbody, bodyResult_eq_bind]
  have htext : valueOn grid dims [p] q = .text s := valueOn_of_text htext [p]
  cases hresidual : residualOf dims (valueOn grid dims [p]) body with
  | error e =>
    refine ⟨e, rfl, fun hnothing => ?_⟩
    obtain ⟨residual, hok⟩ := hnothing
    rw [hresidual] at hok
    cases hok
  | ok residual =>
    have hmem := mem_residualOf (finiteNumbers_valueOn grid dims [p]) hq hin htext hresidual hc
    refine ⟨.name, ?_, fun _ => rfl⟩
    show resultValue (residualValue residual) = _
    rw [residualValue_of_not_isArithmetic hmem hchar]
    rfl

/-- A text in `A1`, and a formula in `B1` that is nothing but its name. -/
def namingSheet (s : String) : Grid := Grid.ofLastTexts [(⟨0, 0⟩, s), (⟨0, 1⟩, "=A1")]

theorem formula?_namingSheet (s : String) :
    (namingSheet s).formula? ⟨0, 1⟩ = some ['A', '1'] := by
  have hget : (namingSheet s).get? ⟨0, 1⟩ = some "=A1" := by
    rw [namingSheet, Grid.get?_ofLastTexts]
    rfl
  rw [Grid.formula?, hget]
  rfl

theorem valueOn_namingSheet {s : String} (hblank : Text.isBlankText s = false)
    (htext : literal s = .text s) (hall : s.toList.all isArithmetic = true) (t : Trail) :
    valueOn (namingSheet s) Dimensions.standard t ⟨0, 0⟩ = .text s := by
  have hget : (namingSheet s).get? ⟨0, 0⟩ = some s := by
    rw [namingSheet, Grid.get?_ofLastTexts]
    show (some s).filter (fun t => !Text.isBlankText t) = some s
    rw [Option.filter_some, hblank]
    rfl
  have hformula : (namingSheet s).formula? ⟨0, 0⟩ = none := by
    rw [Option.eq_none_iff_forall_ne_some]
    intro body hbody
    obtain ⟨raw, hraw, hbody⟩ := Grid.formula?_eq_some_iff.1 hbody
    rw [hget, Option.some.injEq] at hraw
    rw [hraw, hbody] at hall
    exact absurd (List.all_eq_true.1 hall '=' List.mem_cons_self) (by decide)
  rw [valueOn_eq, hformula]
  simp only [plainValue, hget, htext]

theorem residualOf_name {valueOf : Position → Value} {s : String}
    (h : valueOf ⟨0, 0⟩ = .text s) :
    residualOf Dimensions.standard valueOf ['A', '1'] = .ok s.toList := by
  have hcalls : replaceCalls Dimensions.standard valueOf (Text.upperCase ['A', '1']) =
      .ok ['A', '1'] := rfl
  have hsplit : Reference.split ['A', '1'] = [.part ⟨['A'], ['1']⟩] := by decide
  have hreference : referenceChars Dimensions.standard valueOf ⟨['A'], ['1']⟩ = .ok s.toList := by
    have hplace : Position.ofIdText? (Reference.text ⟨['A'], ['1']⟩) = some ⟨0, 0⟩ := by decide
    rw [referenceChars, hplace, settledAt, if_pos (by decide), h]
    rfl
  rw [residualOf, hcalls]
  show replaceReferences Dimensions.standard valueOf ['A', '1'] = _
  rw [replaceReferences, hsplit, Piece.replace_part, hreference]
  show Except.ok (s.toList ++ []) = _
  rw [List.append_nil]

/-- The texts that stay texts in formulas are those with a character that is none of arithmetic. -/
theorem staysText_iff {s : String} (hblank : Text.isBlankText s = false)
    (htext : literal s = .text s) :
    StaysText s ↔ ∃ c ∈ s.toList, isArithmetic c = false := by
  constructor
  · intro hstays
    by_contra hno
    have hall : s.toList.all isArithmetic = true := by
      rw [List.all_eq_true]
      intro c hc
      by_contra hchar
      exact hno ⟨c, hc, Bool.eq_false_of_not_eq_true hchar⟩
    -- a text in the characters of arithmetic is put into the formula as it is
    have hresidual : residualOf Dimensions.standard
        (valueOn (namingSheet s) Dimensions.standard [⟨0, 1⟩]) ['A', '1'] = .ok s.toList :=
      residualOf_name (valueOn_namingSheet hblank htext hall [⟨0, 1⟩])
    obtain ⟨e, he, hname⟩ := hstays (namingSheet s) Dimensions.standard ⟨0, 1⟩ ⟨0, 0⟩ ['A', '1']
      (formula?_namingSheet s) (by decide) (by decide)
      (valueOn_namingSheet hblank htext hall [])
    rw [hname ⟨_, hresidual⟩, valueAt_of_formula (formula?_namingSheet s), bodyResult_eq_bind,
      hresidual] at he
    have hresult : residualValue s.toList = .error .name := resultValue_inj.1 he
    exact residualValue_ne_name_of_all hall hresult
  · rintro ⟨c, hc, hchar⟩
    exact staysText_of_not_isArithmetic hc hchar

theorem staysText_iff_letters :
    Text.isBlankText "1/2a" = false ∧ literal "1/2a" = .text "1/2a" ∧ StaysText "1/2a" := by
  have hblank : Text.isBlankText "1/2a" = false := by decide
  have htext : literal "1/2a" = .text "1/2a" := by decide +kernel
  exact ⟨hblank, htext, (staysText_iff hblank htext).2 ⟨'a', by decide, by decide⟩⟩

/-- A formula that names a cell with the text `1/2` takes it for a division. -/
theorem half_isRead :
    valueAt (namingSheet "1/2") Dimensions.standard ⟨0, 0⟩ = .text "1/2" ∧
      (namingSheet "1/2").formula? ⟨0, 1⟩ = some ['A', '1'] ∧
      ⟨0, 0⟩ ∈ namedBeside ['A', '1'] ∧ Dimensions.standard.contains ⟨0, 0⟩ = true ∧
      valueAt (namingSheet "1/2") Dimensions.standard ⟨0, 1⟩ = .number 0.5 := by
  decide +kernel

end Texts

end Formula

end Spreadsheet
