import Spreadsheet.Proofs.Formula.Agreement
import Spreadsheet.Proofs.Formula.Recursion

/-!
# Spreadsheet.Proofs.Formula.Overflow — formulas over numbers whose results are not finite

A formula whose names and calls all stand for numbers is a tree over these numbers.  Where a result
in the tree is not finite, the arithmetic that is left ends with an error; but an aggregate that is
not finite is written into the formula as a word, and the formula is taken for an unknown name before
its arithmetic is looked at.
-/

namespace Spreadsheet

open Arithmetic

namespace Formula

/-! ### Operands that stand for numbers -/

section Operands

variable (dims : Dimensions) (valueOf : Position → Value)

/-- The number that an operand stands for: that of a numeral, that of a cell on the sheet, which
counts as zero when it is blank, and the aggregate over a rectangle with its corners on the sheet. -/
inductive Operand.Denotes : Operand → Float → Prop
  | numeral (n : Numeral) : Denotes (.numeral n) n.value
  | blank {n : CellName} {q : Position} (hname : n.position? = some q)
      (hin : dims.contains q = true) (hvalue : valueOf q = .empty) : Denotes (.name n) 0
  | number {n : CellName} {q : Position} {x : Float} (hname : n.position? = some q)
      (hin : dims.contains q = true) (hvalue : valueOf q = .number x) : Denotes (.name n) x
  | aggregate {c : Call} {first last : Position} (hfirst : c.first.position? = some first)
      (hlast : c.last.position? = some last) (hinFirst : dims.contains first = true)
      (hinLast : dims.contains last = true) :
      Denotes (.call c) (c.function.apply
        ((Range.mk first last).rect.positions.filterMap fun q => (valueOf q).number?))

end Operands

/-- The operand that is put in place when the operands stand for these numbers. -/
def Operand.settledTo (amount : Operand → Float) : Operand → Settled
  | numeral n => .numeral n
  | name n => .number (amount (name n))
  | call c => .number (amount (call c))

/-- The tree of a formula over the numbers that its operands stand for. -/
def numberTree (amount : Operand → Float) (s : Body) : Expr := s.expr fun o => .number (amount o)

section Denoting

variable {dims : Dimensions} {valueOf : Position → Value} {amount : Operand → Float} {s : Body}

theorem reduce_bind_settle {o : Operand} (h : o.Denotes dims valueOf (amount o)) :
    (o.reduce dims valueOf >>= Reduced.settle dims valueOf) = .ok (o.settledTo amount) := by
  generalize hx : amount o = x at h
  cases h with
  | numeral n => rfl
  | @blank n q hname hin hvalue =>
    show settledAt dims valueOf n.position? = _
    rw [hname, settledAt, if_pos hin, hvalue, Operand.settledTo, hx]
    rfl
  | @number n q x hname hin hvalue =>
    show settledAt dims valueOf n.position? = _
    rw [hname, settledAt, if_pos hin, hvalue, Operand.settledTo, hx]
    rfl
  | @aggregate c first last hfirst hlast hinFirst hinLast =>
    rw [Operand.reduce, hfirst, hlast, aggregateBetween, hinFirst, hinLast, Operand.settledTo, hx]
    rfl

theorem settled_of_denotes (h : ∀ o ∈ s.operands, o.Denotes dims valueOf (amount o)) :
    settled dims valueOf s = .ok (s.map (Operand.settledTo amount)) := by
  obtain ⟨r, hreduced, hsettled⟩ := s.exists_mapM_mapM fun o ho => reduce_bind_settle (h o ho)
  rw [settled, hreduced]
  exact hsettled

theorem not_isText_settledTo (o : Operand) : ¬ (o.settledTo amount).IsText := by
  cases o <;> exact id

theorem value_settledTo {o : Operand} (h : o.Denotes dims valueOf (amount o)) :
    (o.settledTo amount).value = amount o := by
  generalize hx : amount o = x at h
  cases h with
  | numeral n => rfl
  | blank => exact hx
  | number => exact hx
  | aggregate => exact hx

/-- Only aggregates can be infinite or no number when they are put in place. -/
theorem isPlain_settledTo_iff (hfinite : FiniteNumbers valueOf) {o : Operand}
    (h : o.Denotes dims valueOf (amount o)) :
    (o.settledTo amount).IsPlain ↔ ∀ c, o = .call c → (amount (.call c)).isFinite = true := by
  cases o with
  | numeral n => exact iff_of_true trivial (by rintro c ⟨⟩)
  | name n =>
    refine iff_of_true ?_ (by rintro c ⟨⟩)
    show (amount (.name n)).isFinite = true
    generalize amount (.name n) = x at h
    cases h with
    | blank => decide +kernel
    | number hname hin hvalue => exact hfinite _ _ hvalue
  | call c =>
    refine ⟨?_, fun hcalls => hcalls c rfl⟩
    rintro hplain d ⟨⟩
    exact hplain

theorem treeValue_of_finite {e : Expr} (h : ∀ x ∈ e.results, x.isFinite = true) :
    treeValue e = .ok (rounded e.result) := by
  rw [treeValue, Expr.evaluate_eq_ok_iff.2 ⟨rfl, h⟩]

theorem treeValue_of_not_finite {e : Expr} (h : ¬ ∀ x ∈ e.results, x.isFinite = true) :
    treeValue e = .error .failed := by
  rw [treeValue]
  split
  · rename_i x hx
    exact absurd (Expr.evaluate_eq_ok_iff.1 hx).2 h
  · rfl

/-- An aggregate of the formula is infinite or no number. -/
def AggregateOverflows (amount : Operand → Float) (s : Body) : Prop :=
  ∃ c, Operand.call c ∈ s.operands ∧ (amount (.call c)).isFinite = false

theorem not_aggregateOverflows (h : ∀ x ∈ (numberTree amount s).results, x.isFinite = true) :
    ¬ AggregateOverflows amount s := by
  rintro ⟨c, hc, hinfinite⟩
  have hmem : amount (.call c) ∈ (numberTree amount s).results :=
    Phrase.mem_results hc (List.mem_singleton_self _)
  rw [h _ hmem] at hinfinite
  cases hinfinite

section BodyResult

variable (hfinite : FiniteNumbers valueOf) (h : ∀ o ∈ s.operands, o.Denotes dims valueOf (amount o))
include hfinite h

theorem bodyResult_of_aggregateOverflows (hcalls : AggregateOverflows amount s) :
    bodyResult dims valueOf (bodyText s) = .error .name := by
  obtain ⟨c, hc, hinfinite⟩ := hcalls
  rw [bodyResult_bodyText, settled_of_denotes h]
  refine residualValue_of_not_plain ⟨Operand.settledTo amount (.call c), ?_, fun hplain => ?_⟩
  · rw [Phrase.operands_map]
    exact List.mem_map_of_mem hc
  · rw [(isPlain_settledTo_iff hfinite (h _ hc)).1 hplain c rfl] at hinfinite
    cases hinfinite

theorem bodyResult_of_denotes (hcalls : ¬ AggregateOverflows amount s) :
    bodyResult dims valueOf (bodyText s) = treeValue (numberTree amount s) := by
  have hplain : ∀ a ∈ (s.map (Operand.settledTo amount)).operands, a.IsPlain ∧ ¬ a.IsText := by
    rw [Phrase.operands_map, List.forall_mem_map]
    refine fun o ho => ⟨(isPlain_settledTo_iff hfinite (h o ho)).2 ?_, not_isText_settledTo o⟩
    rintro c rfl
    exact Bool.eq_true_of_not_eq_false fun hinfinite => hcalls ⟨c, ho, hinfinite⟩
  calc bodyResult dims valueOf (bodyText s)
    _ = residualValue ((s.map (Operand.settledTo amount)).text Settled.chars) := by
      rw [bodyResult_bodyText, settled_of_denotes h]
      rfl
    _ = treeValue ((s.map (Operand.settledTo amount)).expr fun a => .number a.value) :=
      residualValue_of_numbers (fun a ha => (hplain a ha).1) fun a ha => (hplain a ha).2
    _ = treeValue (s.expr fun o => .number (o.settledTo amount).value) := by
      rw [Phrase.expr_map]
    _ = treeValue (numberTree amount s) := by
      refine congrArg treeValue (Phrase.expr_congr s fun o ho => ?_)
      rw [value_settledTo (h o ho)]

end BodyResult

end Denoting

/-! ### Cells -/

section Cells

variable {grid : Grid} {dims : Dimensions} {t : Trail} {p : Position} {body : List Char} {s : Body}
  {amount : Operand → Float}

/-- A formula whose operands stand for numbers is an unknown name if an aggregate is not finite, an
arithmetic error if another result is not, and otherwise the rounded result. -/
theorem valueOn_of_denotes (hroom : t.length < trailLimit) (hp : p ∉ t)
    (hbody : grid.formula? p = some body) (hs : Text.upperCase (bodyText s) = Text.upperCase body)
    (h : ∀ o ∈ s.operands, o.Denotes dims (valueOn grid dims (t ++ [p])) (amount o)) :
    (valueOn grid dims t p = .error .name ↔ AggregateOverflows amount s) ∧
    (valueOn grid dims t p = .error .failed ↔
      ¬ AggregateOverflows amount s ∧ ∃ x ∈ (numberTree amount s).results, x.isFinite = false) ∧
    ∀ x, valueOn grid dims t p = .number x ↔
      (∀ y ∈ (numberTree amount s).results, y.isFinite = true) ∧
        rounded (numberTree amount s).result = x := by
  have hvalue : valueOn grid dims t p =
      resultValue (bodyResult dims (valueOn grid dims (t ++ [p])) (bodyText s)) := by
    rw [valueOn_eq, hbody]
    simp only
    rw [if_neg hp, if_neg (Nat.not_le.2 hroom), bodyResult, bodyResult, hs]
  have hfinite := finiteNumbers_valueOn grid dims (t ++ [p])
  -- aggregates are written into the formula before anything is computed, so they fail first
  by_cases hcalls : AggregateOverflows amount s
  · rw [hvalue, bodyResult_of_aggregateOverflows hfinite h hcalls]
    refine ⟨iff_of_true rfl hcalls, iff_of_false (by rintro ⟨⟩) fun hno => hno.1 hcalls, fun x => ?_⟩
    exact iff_of_false (by rintro ⟨⟩) fun hall => not_aggregateOverflows hall.1 hcalls
  · rw [hvalue, bodyResult_of_denotes hfinite h hcalls]
    by_cases hall : ∀ y ∈ (numberTree amount s).results, y.isFinite = true
    · rw [treeValue_of_finite hall]
      refine ⟨iff_of_false (by rintro ⟨⟩) hcalls, iff_of_false (by rintro ⟨⟩) ?_, fun x => ?_⟩
      · rintro ⟨-, y, hy, hinfinite⟩
        rw [hall y hy] at hinfinite
        cases hinfinite
      · rw [and_iff_right hall, resultValue, Value.number.injEq]
    · rw [treeValue_of_not_finite hall]
      refine ⟨iff_of_false (by rintro ⟨⟩) hcalls, iff_of_true rfl ⟨hcalls, ?_⟩, fun x => ?_⟩
      · by_contra hno
        exact hall fun y hy =>
          Bool.eq_true_of_not_eq_false fun hinfinite => hno ⟨y, hy, hinfinite⟩
      · exact iff_of_false (by rintro ⟨⟩) fun hx => hall hx.1

end Cells

/-! ### Too large for doubles -/

section TooLarge

/-- Every name stands for `x` and every call for `y`. -/
def amounts (x y : Float) : Operand → Float
  | .numeral n => n.value
  | .name _ => x
  | .call _ => y

/-- A product that is too large for a double is an arithmetic error. -/
theorem valueOn_of_denotes_tripled :
    (tripledSheet "1e308").formula? ⟨0, 1⟩ = some ['A', '1', '*', '3'] ∧
      valueOn (tripledSheet "1e308") Dimensions.standard [] ⟨0, 1⟩ = .error .failed := by
  have hbody : (tripledSheet "1e308").formula? ⟨0, 1⟩ = some ['A', '1', '*', '3'] := by
    decide +kernel
  have hcell : valueOn (tripledSheet "1e308") Dimensions.standard ([] ++ [⟨0, 1⟩]) ⟨0, 0⟩ =
      .number 1e308 := by decide +kernel
  have hoperands : ∀ o ∈ tripled.operands, o.Denotes Dimensions.standard
      (valueOn (tripledSheet "1e308") Dimensions.standard ([] ++ [⟨0, 1⟩]))
      (amounts 1e308 0 o) := by
    show ∀ o ∈ [Operand.name nameA1, .numeral three], _
    rw [List.forall_mem_cons, List.forall_mem_singleton]
    exact ⟨.number (by decide) (by decide) hcell, .numeral three⟩
  refine ⟨hbody, ((valueOn_of_denotes (by decide) List.not_mem_nil hbody (s := tripled)
    (by decide) hoperands).2.1).2 ⟨?_, 1e308 * 3, ?_, by decide +kernel⟩⟩
  · rintro ⟨c, hc, -⟩
    exact absurd hc (by simp [tripled, Phrase.operands])
  · exact List.mem_cons_self

/-- The name `A2`. -/
def nameA2 : CellName := { nameA1 with digits := ['2'], numbered := by simp, isDigit := by simp }

/-- No blanks. -/
def noBlanks : Blanks := ⟨[], List.forall_mem_nil _⟩

/-- The call `SUM(A1:A2)`. -/
def sumOfTwo : Call :=
  ⟨.sum, ['S', 'U', 'M'], nameA1, nameA2, noBlanks, noBlanks, noBlanks, noBlanks, by decide⟩

/-- The body of `=SUM(A1:A2)`. -/
def summed : Body := .alone (.single (.operand (.call sumOfTwo)))

theorem results_summed (x y : Float) : (numberTree (amounts x y) summed).results = [y] := rfl

/-- Two numbers that are finite although their sum is not, and a formula with the sum. -/
def largeSumSheet : Grid :=
  Grid.ofList [(⟨0, 0⟩, "1e308"), (⟨1, 0⟩, "1e308"), (⟨0, 1⟩, "=SUM(A1:A2)")]

/-- Their sum. -/
def largeSum : Float := Aggregate.sum.apply [1e308, 1e308]

/-- An infinite sum is not an arithmetic error. -/
theorem not_failed_largeSumSheet :
    ¬ ∀ (grid : Grid) (dims : Dimensions) (p : Position) (body : List Char) (s : Body)
        (amount : Operand → Float),
      grid.formula? p = some body → Text.upperCase (bodyText s) = Text.upperCase body →
      (∀ o ∈ s.operands, o.Denotes dims (valueOn grid dims [p]) (amount o)) →
      (∃ x ∈ (numberTree amount s).results, x.isFinite = false) →
      valueAt grid dims p = .error .failed := by
  intro h
  have hbody : largeSumSheet.formula? ⟨0, 1⟩ = some "SUM(A1:A2)".toList := by decide +kernel
  have hname : valueAt largeSumSheet Dimensions.standard ⟨0, 1⟩ = .error .name := by
    decide +kernel
  have hnumbers : (Range.mk ⟨0, 0⟩ ⟨1, 0⟩).rect.positions.filterMap
      (fun q => (valueOn largeSumSheet Dimensions.standard [⟨0, 1⟩] q).number?) =
        [1e308, 1e308] := by
    decide +kernel
  have hoperands : ∀ o ∈ summed.operands, o.Denotes Dimensions.standard
      (valueOn largeSumSheet Dimensions.standard [⟨0, 1⟩]) (amounts 0 largeSum o) := by
    show ∀ o ∈ [Operand.call sumOfTwo], _
    rw [List.forall_mem_singleton, amounts, largeSum, ← hnumbers]
    exact .aggregate (by decide) (by decide) (by decide) (by decide)
  have hinfinite : largeSum.isFinite = false := by decide +kernel
  have hresults : ∃ x ∈ (numberTree (amounts 0 largeSum) summed).results, x.isFinite = false := by
    rw [results_summed]
    exact ⟨largeSum, List.mem_singleton_self _, hinfinite⟩
  have hfailed := h largeSumSheet Dimensions.standard ⟨0, 1⟩ _ summed (amounts 0 largeSum) hbody
    (by decide) hoperands hresults
  rw [hname] at hfailed
  cases hfailed

end TooLarge

end Formula

end Spreadsheet
