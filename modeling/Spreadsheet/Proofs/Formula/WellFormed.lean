import Spreadsheet.Proofs.Formula.Passes
import Spreadsheet.Proofs.Formula.TextOperands

/-!
# Spreadsheet.Proofs.Formula.WellFormed — which formulas are numbers

A formula is read only after its parts have been replaced, so what is read may be arithmetic
although the formula is none.  If no cell that it names has a text, that happens only where a number
joins its neighbours: without such a seam, the formulas that are numbers are the phrases that mean
one, and every other formula is an error.  Phrases have no seams.
-/

namespace Spreadsheet

open Arithmetic

namespace Formula

/-! ### Parts as operands -/

/-- A reference that stands for a cell is a cell name. -/
theorem exists_cellName {r : Reference} (h : r.WellRead) {q : Position}
    (hq : Position.ofIdText? r.text = some q) : ∃ n : CellName, n.text = r.text := by
  have hdigit : ∀ c ∈ r.digits, c.isDigit = true := by
    intro c hc
    by_contra hno
    have hdecimal := h.isDecimalDigit c hc
    rw [Text.isDecimalDigit, Bool.eq_false_of_not_eq_true hno, Bool.false_or, Bool.and_eq_true]
      at hdecimal
    have hnone := Position.ofIdText?_eq_none (List.mem_append_right r.letters hc)
      (of_decide_eq_true hdecimal.1)
    rw [Reference.text, hnone] at hq
    cases hq
  exact ⟨⟨r.letters, r.digits, h.lettered, h.numbered,
    fun c hc => Text.isAlpha_iff.2 (.inl (h.isUpper c hc)), hdigit⟩, rfl⟩

/-- A call whose corners stand for cells is a call of the language. -/
theorem exists_call {k : RangeCall} {here : List Char} (h : k.Spelled here) {first last : Position}
    (hfirst : Position.ofIdText? k.first.text = some first)
    (hlast : Position.ofIdText? k.last.text = some last) : ∃ c : Call, c.text = here := by
  obtain ⟨hreadFirst, hreadLast, gap₁, gap₂, gap₃, gap₄, rfl⟩ := h
  obtain ⟨n, hn⟩ := exists_cellName hreadFirst hfirst
  obtain ⟨m, hm⟩ := exists_cellName hreadLast hlast
  have hname : k.function.name.toList.map Char.toUpper = k.function.name.toList := by
    refine (List.map_congr_left fun c hc => ?_).trans (List.map_id _)
    exact Text.toUpper_of_not_isLower (Text.not_isLower_of_isUpper (isUpper_of_mem_name hc))
  refine ⟨⟨k.function, k.function.name.toList, n, m, gap₁, gap₂, gap₃, gap₄, hname⟩, ?_⟩
  simp only [Call.text, RangeCall.innerText, hn, hm, List.append_assoc, List.cons_append]

section Formulas

variable {dims : Dimensions} {valueOf : Position → Value} {body : List Char}

/-- No cell on the sheet that a formula names outside its calls has a text. -/
def NamesNoText (dims : Dimensions) (valueOf : Position → Value) (body : List Char) : Prop :=
  ∀ q ∈ namedBeside body, dims.contains q = true → ∀ s, valueOf q ≠ .text s

/-- A part with a replacement in the characters of arithmetic is an operand in whose place a number
has been put. -/
theorem exists_operand (htext : NamesNoText dims valueOf body) {a : Part}
    (ha : a ∈ Piece.parts (cut (Text.upperCase body))) {here cs : List Char}
    (hspelled : a.Spelled here) (hcs : partChars dims valueOf a = .ok cs)
    (harith : cs.all isArithmetic = true) :
    ∃ o : Operand, o.text = here ∧ ∃ e, Shown cs e := by
  -- numbers in the characters of arithmetic are those that are finite
  have hshown {x : Float} (hx : spliced x = cs) : ∃ e, Shown cs e := by
    subst hx
    rw [all_isArithmetic_spliced] at harith
    exact exists_shown_spliced harith
  cases a with
  | call k =>
    obtain ⟨x, hx, hchars⟩ := exists_ok_of_map_ok hcs
    cases hfirst : Position.ofIdText? k.first.text with
    | none => rw [hfirst] at hx; cases hx
    | some first =>
      cases hlast : Position.ofIdText? k.last.text with
      | none => rw [hfirst, hlast] at hx; cases hx
      | some last =>
        obtain ⟨c, hc⟩ := exists_call hspelled hfirst hlast
        exact ⟨.call c, hc, hshown hchars⟩
  | name r =>
    obtain ⟨hread, rfl⟩ := hspelled
    obtain ⟨settled, hsettled, hchars⟩ := exists_ok_of_map_ok hcs
    cases hq : Position.ofIdText? r.text with
    | none => rw [hq] at hsettled; cases hsettled
    | some q =>
      obtain ⟨n, hn⟩ := exists_cellName hread hq
      refine ⟨.name n, hn, ?_⟩
      rw [hq, settledAt] at hsettled
      split at hsettled
      · rename_i hin
        have hno := htext q (mem_namedBeside ha hq) hin
        cases hvalue : valueOf q with
        | empty =>
          rw [hvalue] at hsettled
          cases hsettled
          exact hshown hchars
        | number x =>
          rw [hvalue] at hsettled
          cases hsettled
          exact hshown hchars
        | text s => exact absurd hvalue (hno s)
        | error e => rw [hvalue] at hsettled; cases hsettled
      · cases hsettled

theorem Spells.of_parts {β : Type} {spelled spelled' : β → List Char → Prop} {ps : List (Piece β)}
    {cs : List Char} (h : Spells spelled ps cs)
    (himp : ∀ b ∈ Piece.parts ps, ∀ here, spelled b here → spelled' b here) :
    Spells spelled' ps cs := by
  induction h with
  | nil => exact .nil
  | plain _ ih => exact .plain (ih himp)
  | part hb _ ih =>
    obtain ⟨hhere, hrest⟩ := List.forall_mem_cons.1 himp
    exact .part (hhere _ hb) (ih hrest)

theorem all_isArithmetic_of_residualValue {cs : List Char} {x : Float}
    (h : residualValue cs = .ok x) : cs.all isArithmetic = true ∧ ∃ e, parse cs = .ok e := by
  rw [residualValue] at h
  split at h
  · rename_i hall
    split at h
    · rename_i y hy
      obtain ⟨e, he, -⟩ := exists_ok_of_bind_ok hy
      exact ⟨hall, e, he⟩
    · cases h
  · cases h

/-- A formula that is a number is a phrase, unless a number joins its neighbours. -/
theorem exists_body_of_bodyResult (hfinite : FiniteNumbers valueOf)
    (htext : NamesNoText dims valueOf body) {x : Float} (h : bodyResult dims valueOf body = .ok x)
    (hjoins : joinsFrom (shownPart dims valueOf) false false false (cut (Text.upperCase body)) =
      false) : ∃ s : Body, bodyText s = Text.upperCase body := by
  rw [bodyResult_eq_bind] at h
  obtain ⟨residual, hresidual, hvalue⟩ := exists_ok_of_bind_ok h
  obtain ⟨aggregated, hcalls, hnames⟩ := exists_ok_of_bind_ok hresidual
  have hreplace := replace_cutFrom hfinite 0 true (Text.upperCase body)
    (fun _ => Reference.idle_nil) hcalls hnames
  obtain ⟨htextShown, hparts⟩ := replace_eq_shownText hreplace
  obtain ⟨hall, e, hparse⟩ := all_isArithmetic_of_residualValue hvalue
  -- every part is an operand, and what has been put in its place is a number
  have hspells : Spells (fun a here => ∃ o : Operand × Expr, o.1.text = here ∧
      Shown (shownPart dims valueOf a) o.2) (cut (Text.upperCase body)) (Text.upperCase body) := by
    refine (spells_cut _).of_parts fun a ha here hspelled => ?_
    have harith : (shownPart dims valueOf a).all isArithmetic = true := by
      rw [List.all_eq_true] at hall ⊢
      exact fun c hc => hall c (Piece.mem_of_replace ha (hparts a ha) hreplace hc)
    obtain ⟨o, ho, e, he⟩ := exists_operand htext ha hspelled (hparts a ha) harith
    exact ⟨(o, e), ho, he⟩
  rw [htextShown] at hparse
  obtain ⟨s, hs, -⟩ := exists_phrase_of_parse
    (fun n => ⟨(.numeral n, .number n.value), rfl, rfl⟩) (fun _ _ hb => hb) hspells hjoins hparse
  refine ⟨s.map Prod.fst, ?_⟩
  rw [bodyText, Phrase.text, Phrase.render_map]
  exact hs

/-- A phrase has no seam, whatever is put in place of its parts. -/
theorem joinsFrom_body {s : Body} (hs : bodyText s = Text.upperCase body)
    (shown : Part → List Char) :
    joinsFrom shown false false false (cut (Text.upperCase body)) = false := by
  have hupper : Text.upperCase body = s.text Operand.upperText := by
    rw [← upperCase_body, hs, Text.upperCase_upperCase]
  have hclosed : ClosedPieces ([] : List (Piece Part)) := fun _ hp => nomatch hp
  have hjoins : joinsFrom shown false false false
      (s.render (fun c => [.plain c]) Operand.pieces ++ []) = joinsFrom shown false false true [] :=
    joinsFrom_phrase s (fun a _ => isOperand_pieces a) hclosed
  rw [List.append_nil] at hjoins
  rw [hupper, cut_phrase, hjoins]
  rfl

/-- No operand of a settled phrase is a text. -/
theorem not_isText_of_settled {s : Body} (hs : bodyText s = Text.upperCase body)
    (htext : NamesNoText dims valueOf body) {u : Phrase Settled .expression}
    (hu : settled dims valueOf s = .ok u) : ∀ a ∈ u.operands, ¬ a.IsText := by
  intro a ha hatext
  obtain ⟨r, hr, hu⟩ := exists_ok_of_bind_ok hu
  obtain ⟨b, hb, hsettle⟩ := Phrase.mem_of_mapM hu ha
  obtain ⟨o, ho, hreduce⟩ := Phrase.mem_of_mapM hr hb
  -- only a name can settle to a text, and no name has one here
  cases b with
  | numeral n =>
    cases hsettle
    exact hatext
  | number x =>
    cases hsettle
    exact hatext
  | name n =>
    cases o with
    | numeral m => cases hreduce
    | call k =>
      obtain ⟨x, -, hx⟩ := exists_ok_of_map_ok hreduce
      cases hx
    | name m =>
      cases hreduce
      cases hq : n.position? with
      | none => rw [Reduced.settle, hq] at hsettle; cases hsettle
      | some q =>
        rw [Reduced.settle, hq, settledAt] at hsettle
        split at hsettle
        · rename_i hin
          have hname : Part.name n.upper ∈ Piece.parts (cut (Text.upperCase body)) := by
            have hupper : Text.upperCase body = s.text Operand.upperText := by
              rw [← upperCase_body, hs, Text.upperCase_upperCase]
            rw [hupper, cut_phrase]
            refine List.mem_filterMap.2 ⟨.part (.name n.upper), ?_, rfl⟩
            exact Phrase.mem_render ho (List.mem_singleton_self _)
          have hno := htext q (mem_namedBeside hname ((ofIdText?_upper n).trans hq)) hin
          cases hvalue : valueOf q with
          | text t => exact hno t hvalue
          | empty => rw [hvalue] at hsettle; cases hsettle; exact hatext
          | number x => rw [hvalue] at hsettle; cases hsettle; exact hatext
          | error e => rw [hvalue] at hsettle; cases hsettle
        · cases hsettle

/-- A phrase that names no text is a number if it means one. -/
theorem bodyResult_eq_ok_iff {s : Body} (hs : bodyText s = Text.upperCase body)
    (htext : NamesNoText dims valueOf body) {x : Float} :
    bodyResult dims valueOf body = .ok x ↔ meaning dims valueOf s = .ok x := by
  have hbody : bodyResult dims valueOf body = bodyResult dims valueOf (bodyText s) := by
    rw [bodyResult, bodyResult, hs, Text.upperCase_upperCase]
  rw [hbody]
  by_cases hread : ∀ u, settled dims valueOf s = .ok u → ¬ Misread u
  · rw [(bodyResult_eq_meaning_iff valueOf s).2 hread]
  · -- a number that is not finite is no number of either
    obtain ⟨u, hu, hmisread⟩ : ∃ u, settled dims valueOf s = .ok u ∧ Misread u := by
      by_contra hno
      exact hread fun u hu hmisread => hno ⟨u, hu, hmisread⟩
    have hno := not_isText_of_settled hs htext hu
    obtain ⟨a, ha, hplain⟩ : ∃ a ∈ u.operands, ¬ a.IsPlain := by
      rcases hmisread with ⟨⟨a, ha, hatext⟩, -⟩ | ⟨-, hplain⟩
      · exact absurd hatext (hno a ha)
      · exact hplain
    have hresult : bodyResult dims valueOf (bodyText s) = .error .name := by
      rw [bodyResult_bodyText, hu]
      exact residualValue_of_not_plain ⟨a, ha, hplain⟩
    rw [hresult]
    refine iff_of_false (fun hname => by cases hname) fun hmeaning => ?_
    rw [meaning, hu] at hmeaning
    change (u.mapM Settled.amount >>= fun numbers => treeValue (numbers.expr Expr.number)) = .ok x
      at hmeaning
    rw [mapM_amount_of_no_text hno] at hmeaning
    change treeValue ((u.map Settled.value).expr Expr.number) = .ok x at hmeaning
    rw [Phrase.expr_map, treeValue] at hmeaning
    split at hmeaning
    · rename_i y hy
      -- the tree has a value only if the operand that is not plain has one
      obtain ⟨z, hz⟩ := Phrase.evaluate_leaf hy ha
      cases a with
      | numeral n => exact hplain trivial
      | text t => exact hno _ ha trivial
      | number w =>
        refine hplain ?_
        rw [Settled.value, Expr.evaluate, Expr.finite] at hz
        split at hz
        · assumption
        · cases hz
    · cases hmeaning

end Formulas

/-! ### Formulas on a sheet -/

section Sheet

variable {grid : Grid} {dims : Dimensions} {p : Position} {body : List Char}

/-- What is put in place of a part of the formula in a cell joins its neighbours. -/
def Joins (grid : Grid) (dims : Dimensions) (p : Position) (body : List Char) : Prop :=
  joinsFrom (shownPart dims (valueOn grid dims [p])) false false false (cut (Text.upperCase body)) =
    true

/-- If no cell that a formula names has a text, the formula is a number without a seam exactly if it
is a phrase that means the number; and a formula that is no phrase is an error, unless it has a
seam. -/
theorem valueAt_eq_number_iff (hbody : grid.formula? p = some body)
    (htext : ∀ q ∈ namedBeside body, dims.contains q = true → ∀ s, valueAt grid dims q ≠ .text s) :
    (∀ x, valueAt grid dims p = .number x ∧ ¬ Joins grid dims p body ↔
      ∃ s : Body, bodyText s = Text.upperCase body ∧
        meaning dims (valueOn grid dims [p]) s = .ok x) ∧
    ((¬ ∃ s : Body, bodyText s = Text.upperCase body) → ¬ Joins grid dims p body →
      ∃ e, valueAt grid dims p = .error e) := by
  have hnames : NamesNoText dims (valueOn grid dims [p]) body := fun q hq hin s hs =>
    htext q hq hin s (valueOn_of_text hs [])
  have hfinite := finiteNumbers_valueOn grid dims [p]
  have hvalue : valueAt grid dims p = resultValue (bodyResult dims (valueOn grid dims [p]) body) :=
    valueAt_of_formula hbody
  have hnumber {x : Float} : valueAt grid dims p = .number x ↔
      bodyResult dims (valueOn grid dims [p]) body = .ok x := by
    rw [hvalue, show Value.number x = resultValue (.ok x) from rfl, resultValue_inj]
  -- without a seam the text of a number comes from the formula itself
  have hphrase {x : Float} (hx : valueAt grid dims p = .number x)
      (hjoins : ¬ Joins grid dims p body) : ∃ s : Body, bodyText s = Text.upperCase body :=
    exists_body_of_bodyResult hfinite hnames (hnumber.1 hx) (Bool.eq_false_of_not_eq_true hjoins)
  refine ⟨fun x => ⟨?_, ?_⟩, fun hno hjoins => ?_⟩
  · rintro ⟨hx, hjoins⟩
    obtain ⟨s, hs⟩ := hphrase hx hjoins
    exact ⟨s, hs, (bodyResult_eq_ok_iff hs hnames).1 (hnumber.1 hx)⟩
  · rintro ⟨s, hs, hmeaning⟩
    refine ⟨hnumber.2 ((bodyResult_eq_ok_iff hs hnames).2 hmeaning), ?_⟩
    rw [Joins, joinsFrom_body hs]
    exact Bool.false_ne_true
  · cases hresult : bodyResult dims (valueOn grid dims [p]) body with
    | ok x => exact absurd (hphrase (hnumber.2 hresult) hjoins) hno
    | error e => exact ⟨e, by rw [hvalue, hresult]; rfl⟩

/-- Two tripled is a number and has no seam. -/
theorem valueAt_eq_number_tripled :
    (tripledSheet "2").formula? ⟨0, 1⟩ = some ['A', '1', '*', '3'] ∧
      valueAt (tripledSheet "2") Dimensions.standard ⟨0, 1⟩ = .number 6 ∧
      ¬ Joins (tripledSheet "2") Dimensions.standard ⟨0, 1⟩ ['A', '1', '*', '3'] := by
  have hbody : (tripledSheet "2").formula? ⟨0, 1⟩ = some ['A', '1', '*', '3'] := by decide +kernel
  have htext : ∀ q ∈ namedBeside ['A', '1', '*', '3'], Dimensions.standard.contains q = true →
      ∀ s, valueAt (tripledSheet "2") Dimensions.standard q ≠ .text s := by
    have hnamed : namedBeside ['A', '1', '*', '3'] = [⟨0, 0⟩] := by decide
    have htwo : valueAt (tripledSheet "2") Dimensions.standard ⟨0, 0⟩ = .number 2 := by
      decide +kernel
    intro q hq _ s hs
    rw [hnamed, List.mem_singleton] at hq
    rw [hq, htwo] at hs
    cases hs
  exact ⟨hbody, ((valueAt_eq_number_iff hbody htext).1 6).2
    ⟨tripled, by decide, by decide +kernel⟩⟩

/-- The digit before the name and the digit that is put in its place are one numeral, although the
formula is no phrase. -/
theorem valueAt_fused :
    valueAt (Grid.ofList [(⟨0, 0⟩, "5"), (⟨0, 1⟩, "=2A1")]) Dimensions.standard ⟨0, 1⟩ =
        .number 25 ∧
      namedBeside ['2', 'A', '1'] = [⟨0, 0⟩] ∧
      valueAt (Grid.ofList [(⟨0, 0⟩, "5"), (⟨0, 1⟩, "=2A1")]) Dimensions.standard ⟨0, 0⟩ =
        .number 5 ∧
      ¬ ∃ s : Body, bodyText s = Text.upperCase ['2', 'A', '1'] := by
  refine ⟨by decide +kernel, by decide, by decide +kernel, ?_⟩
  rintro ⟨s, hs⟩
  exact absurd (joinsFrom_body hs fun _ => ['5']) (by decide)

-- Negative zero is written with its sign, which is an operator behind the parenthesis.
example : valueAt (Grid.ofList [(⟨0, 1⟩, "=(1)A2"), (⟨1, 0⟩, "-0")]) Dimensions.standard ⟨0, 1⟩ =
    .number 1 := by
  decide +kernel

end Sheet

end Formula

end Spreadsheet
