import Mathlib.Logic.Relation
import Spreadsheet.Proofs.Formula.Cycles
import Spreadsheet.Proofs.Grid.Entries

/-!
# Spreadsheet.Proofs.Formula.Reached — a cell depends on the cells that its formula reaches

A formula reaches the cells that it names, in calls and outside them, those that the formulas in
these name, and so on.  Two sheets with the same texts in all of them, and which agree about which
of the cells that are named lie on the sheet, give the cell the same value.  It is compared on every
trail, so that cycles and full trails end evaluation in the same way on both.
-/

namespace Spreadsheet.Formula

open Relation

section Reached

variable {grid grid' : Grid} {dims dims' : Dimensions} {t : Trail} {p q : Position}

/-- The formula in one cell names the other one. -/
def Names (grid : Grid) (p q : Position) : Prop :=
  ∃ body, grid.formula? p = some body ∧ Mentions body q

/-- The cells that a cell reaches over the names in formulas, itself among them. -/
def Reaches (grid : Grid) : Position → Position → Prop := ReflTransGen (Names grid)

/-- Two sheets that agree about the texts of all cells that a cell reaches, and about which of the
cells that are named in these lie on the sheet. -/
structure AgreeFrom (grid grid' : Grid) (dims dims' : Dimensions) (p : Position) : Prop where
  texts : ∀ q, Reaches grid p q → grid.get? q = grid'.get? q
  onSheet : ∀ q a, Reaches grid p q → Names grid q a → dims.contains a = dims'.contains a

namespace AgreeFrom

theorem named (h : AgreeFrom grid grid' dims dims' p) (hpq : Names grid p q) :
    AgreeFrom grid grid' dims dims' q where
  texts r hr := h.texts r (.head hpq hr)
  onSheet r a hr := h.onSheet r a (.head hpq hr)

theorem formula?_eq (h : AgreeFrom grid grid' dims dims' p) :
    grid.formula? p = grid'.formula? p := by
  rw [Grid.formula?, Grid.formula?, h.texts p .refl]

theorem plainValue_eq (h : AgreeFrom grid grid' dims dims' p) :
    plainValue grid p = plainValue grid' p := by
  rw [plainValue, plainValue, h.texts p .refl]

/-- Evaluation does the same on both sheets, whatever is on the trail. -/
theorem valueOn_eq_valueOn (h : AgreeFrom grid grid' dims dims' p) (t : Trail) :
    valueOn grid dims t p = valueOn grid' dims' t p := by
  -- the room on the trail is what the recursion uses up
  induction hroom : trailLimit - t.length generalizing t p with
  | zero =>
    have hfull : trailLimit ≤ t.length := by omega
    rw [valueOn_eq, valueOn_eq, ← h.formula?_eq, h.plainValue_eq]
    simp only [if_pos hfull]
  | succ room ih =>
    rw [valueOn_eq, valueOn_eq, ← h.formula?_eq]
    cases hbody : grid.formula? p with
    | none => exact h.plainValue_eq
    | some body =>
      have hnames : ∀ q, Mentions body q → Names grid p q := fun q hq => ⟨body, hbody, hq⟩
      have hresult : bodyResult dims (valueOn grid dims (t ++ [p])) body =
          bodyResult dims' (valueOn grid' dims' (t ++ [p])) body := by
        refine bodyResult_congr (finiteNumbers_valueOn grid dims _)
          (fun a ha => h.onSheet p a .refl (hnames a ha)) fun q _ hq => ?_
        refine ih (h.named (hnames q hq)) (t ++ [p]) ?_
        rw [List.length_append, List.length_singleton]
        omega
      simp only [hresult]

end AgreeFrom

variable (grid dims p)

/-- The value of a cell is the same on all sheets that agree about the cells that it reaches.  So
neither writing a cell that it does not reach nor growing the sheet by cells that no formula it
reaches names has an effect on it. -/
theorem valueAt_eq_of_agreeFrom :
    (∀ grid' dims', AgreeFrom grid grid' dims dims' p →
      valueAt grid dims p = valueAt grid' dims' p) ∧
    (∀ q text, ¬ Reaches grid p q → valueAt grid dims p = valueAt (grid.set q text) dims p) ∧
    (∀ dims' : Dimensions, dims.rows ≤ dims'.rows → dims.cols ≤ dims'.cols →
      (∀ q a, Reaches grid p q → Names grid q a → dims'.contains a = true →
        dims.contains a = true) →
      valueAt grid dims p = valueAt grid dims' p) := by
  have hagree {grid' : Grid} {dims' : Dimensions} (h : AgreeFrom grid grid' dims dims' p) :
      valueAt grid dims p = valueAt grid' dims' p := h.valueOn_eq_valueOn []
  -- writing a cell and growing the sheet are two ways to agree
  refine ⟨fun grid' dims' h => hagree h,
    fun q text hq => hagree ⟨fun r hr => ?_, fun _ _ _ _ => rfl⟩,
    fun dims' hrows hcols hnew => hagree ⟨fun _ _ => rfl, fun q a hq ha => ?_⟩⟩
  · have hne : r ≠ q := by
      rintro rfl
      exact hq hr
    exact (Grid.get?_set_of_ne grid hne).symm
  · rw [Bool.eq_iff_iff]
    refine ⟨fun hold => ?_, hnew q a hq ha⟩
    rw [Dimensions.contains_iff] at hold ⊢
    omega

end Reached

/-! ### A cell that reaches itself only -/

theorem eq_of_contains_single {p q : Position} (h : (Range.single p).contains q = true) :
    q = p := by
  obtain ⟨row, col⟩ := p
  obtain ⟨row', col'⟩ := q
  simp only [Range.single, Range.contains, Range.rect, Rect.contains, min_self, max_self,
    Bool.and_eq_true, decide_eq_true_eq] at h
  rw [Position.mk.injEq]
  omega

theorem names_selfSheet {p q : Position} (h : Names selfSheet p q) : q = ⟨0, 0⟩ := by
  have hentries : selfSheet.entries = [(⟨0, 0⟩, "=COUNT(A1:A1)+A1")] := by decide +kernel
  have htext : "=COUNT(A1:A1)+A1".toList = '=' :: "COUNT(A1:A1)+A1".toList := by decide
  have hnamed : namedBeside "COUNT(A1:A1)+A1".toList = [⟨0, 0⟩] := by decide +kernel
  have hcalls : callsOf "COUNT(A1:A1)+A1".toList =
      [⟨.count, ⟨['A'], ['1']⟩, ⟨['A'], ['1']⟩⟩] := by decide +kernel
  have hA1 : Position.ofIdText? (Reference.mk ['A'] ['1']).text = some ⟨0, 0⟩ := by decide
  obtain ⟨body, hbody, hq⟩ := h
  obtain ⟨raw, hraw, hbody⟩ := Grid.formula?_eq_some_iff.1 hbody
  have hmem := Grid.get?_eq_some_iff.1 hraw
  rw [hentries, List.mem_singleton] at hmem
  cases hmem
  rw [htext] at hbody
  obtain rfl := (List.cons.inj hbody).2
  rcases hq with hq | ⟨call, hcall, first, last, hfirst, hlast, hcover⟩
  · rwa [hnamed, List.mem_singleton] at hq
  · rw [hcalls, List.mem_singleton] at hcall
    subst hcall
    obtain rfl := Option.some.inj (hA1.symm.trans hfirst)
    obtain rfl := Option.some.inj (hA1.symm.trans hlast)
    exact eq_of_contains_single hcover

/-- Its cycle shows the same error whatever stands elsewhere and however large the sheet is. -/
theorem valueAt_eq_of_agreeFrom_selfSheet :
    valueAt selfSheet ⟨1, 1, by decide, by decide⟩ ⟨0, 0⟩ =
        valueAt (selfSheet.set ⟨2, 2⟩ "=A1") Dimensions.standard ⟨0, 0⟩ ∧
      valueAt selfSheet Dimensions.standard ⟨0, 0⟩ =
        valueAt (selfSheet.set ⟨0, 1⟩ "7") Dimensions.standard ⟨0, 0⟩ ∧
      valueAt selfSheet ⟨1, 1, by decide, by decide⟩ ⟨0, 0⟩ =
        valueAt selfSheet Dimensions.standard ⟨0, 0⟩ := by
  have hreaches {q : Position} (hq : Reaches selfSheet ⟨0, 0⟩ q) : q = ⟨0, 0⟩ := by
    rcases ReflTransGen.cases_tail hq with rfl | ⟨r, -, hr⟩
    · rfl
    · exact names_selfSheet hr
  have hagree : AgreeFrom selfSheet (selfSheet.set ⟨2, 2⟩ "=A1") ⟨1, 1, by decide, by decide⟩
      Dimensions.standard ⟨0, 0⟩ := by
    refine ⟨fun q hq => ?_, fun q a _ ha => ?_⟩
    · rw [hreaches hq]
      exact (Grid.get?_set_of_ne selfSheet (by decide)).symm
    · rw [names_selfSheet ha]
      rfl
  refine ⟨(valueAt_eq_of_agreeFrom _ _ _).1 _ _ hagree,
    (valueAt_eq_of_agreeFrom _ _ _).2.1 _ _ fun hq => ?_,
    (valueAt_eq_of_agreeFrom _ _ _).2.2 _ (by decide) (by decide) fun q a _ ha _ => ?_⟩
  · exact absurd (hreaches hq) (by decide)
  · rw [names_selfSheet ha]
    rfl

end Spreadsheet.Formula
