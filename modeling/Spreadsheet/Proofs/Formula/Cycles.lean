import Mathlib.Logic.Relation
import Spreadsheet.Proofs.Formula.Dependence

/-!
# Spreadsheet.Proofs.Formula.Cycles — evaluation ends, and cycles show errors

Evaluation is the only function that is its own step, and it keeps the trail.  Where references
outside calls lead on from formula to formula until the trail is full, one of the two guards ends the
last evaluation with an error, and each formula on the way passes the error on.  A cycle of such
references leads on for ever.
-/

namespace Spreadsheet.Formula

open Relation

section Cycles

variable (grid : Grid) (dims : Dimensions)

/-- The formula in one cell names the other one, which is on the sheet, outside its calls. -/
def RefersTo (p q : Position) : Prop :=
  dims.contains q = true ∧ ∃ body, grid.formula? p = some body ∧ q ∈ namedBeside body

/-- References outside calls lead on from a formula cell over so many formula cells more. -/
def LeadsOn : Nat → Position → Prop
  | 0, p => (grid.formula? p).isSome = true
  | n + 1, p => ∃ q, RefersTo grid dims p q ∧ LeadsOn n q

variable {grid dims}

theorem exists_eq_error {v : Value} (h : v.isError = true) : ∃ e, v = .error e := by
  cases v with
  | error e => exact ⟨e, rfl⟩
  | _ => cases h

/-- References that lead on until the trail is full lead to an error. -/
theorem isError_of_leadsOn {n : Nat} {t : Trail} {p : Position} (h : LeadsOn grid dims n p)
    (hfull : trailLimit ≤ t.length + n) : (valueOn grid dims t p).isError = true := by
  -- induction on the references to come; either guard is an error before they run out
  induction n generalizing t p with
  | zero =>
    obtain ⟨body, hbody⟩ := Option.isSome_iff_exists.1 h
    rw [valueOn_eq, hbody]
    simp only [if_pos (show trailLimit ≤ t.length from hfull)]
    split <;> rfl
  | succ n ih =>
    obtain ⟨q, ⟨hin, body, hbody, hq⟩, hnext⟩ := h
    rw [valueOn_eq, hbody]
    simp only
    split
    · rfl
    · split
      · rfl
      · have herr : (valueOn grid dims (t ++ [p]) q).isError = true := by
          refine ih hnext ?_
          rw [List.length_append, List.length_singleton]
          omega
        obtain ⟨e, he⟩ := exists_eq_error herr
        obtain ⟨e', he'⟩ :=
          exists_error_bodyResult (finiteNumbers_valueOn grid dims (t ++ [p])) hq hin he
        rw [he']
        rfl

theorem leadsOn_of_walk {n : Nat} {c : Nat → Position}
    (hstep : ∀ i < n, RefersTo grid dims (c i) (c (i + 1)))
    (hlast : (grid.formula? (c n)).isSome = true) : LeadsOn grid dims n (c 0) := by
  induction n generalizing c with
  | zero => exact hlast
  | succ n ih =>
    exact ⟨c 1, hstep 0 (Nat.succ_pos n), ih (c := fun i => c (i + 1))
      (fun i hi => hstep (i + 1) (Nat.succ_lt_succ hi)) hlast⟩

/-- From a cell that leads to a cycle references lead on as far as one likes. -/
theorem leadsOn_of_cycle {p q : Position} (hreach : ReflTransGen (RefersTo grid dims) p q)
    (hcycle : TransGen (RefersTo grid dims) q q) (n : Nat) : LeadsOn grid dims n p := by
  induction n generalizing p with
  | zero =>
    obtain ⟨r, ⟨-, body, hbody, -⟩, -⟩ := TransGen.head'_iff.1 (hcycle.trans_right hreach)
    exact Option.isSome_iff_exists.2 ⟨body, hbody⟩
  | succ n ih =>
    obtain ⟨r, hr, hrest⟩ := TransGen.head'_iff.1 (hcycle.trans_right hreach)
    exact ⟨r, hr, ih hrest⟩

variable (grid dims)

/-- The recursion of evaluation has exactly one solution, which keeps the trail, and gives an error
where references outside calls go over as many formula cells as fill a trail and to one more, or into
a cycle. -/
theorem evaluate_ends :
    (∀ value, value = evaluateStep grid dims value ↔ value = evaluate grid dims) ∧
      ∀ (t : Trail) (p : Position), ∃ v, (evaluate grid dims p).run t = (v, t) ∧
        (∀ c : Nat → Position, c 0 = p → (∀ i ≤ trailLimit, (grid.formula? (c i)).isSome = true) →
          (∀ i < trailLimit, RefersTo grid dims (c i) (c (i + 1))) → v.isError = true) ∧
        (∀ q, ReflTransGen (RefersTo grid dims) p q → TransGen (RefersTo grid dims) q q →
          v.isError = true) := by
  refine ⟨fun value => eq_evaluateStep_iff grid dims, fun t p => ?_⟩
  refine ⟨valueOn grid dims t p, reads_evaluate grid dims t p, ?_, ?_⟩
  · rintro c rfl hformula hstep
    exact isError_of_leadsOn (leadsOn_of_walk hstep (hformula trailLimit (Nat.le_refl _)))
      (Nat.le_add_left _ _)
  · intro q hreach hcycle
    exact isError_of_leadsOn (leadsOn_of_cycle hreach hcycle trailLimit) (Nat.le_add_left _ _)

end Cycles

/-- A sheet whose only cell names itself, in a call and outside it. -/
def selfSheet : Grid := Grid.ofList [(⟨0, 0⟩, "=COUNT(A1:A1)+A1")]

theorem evaluate_ends_selfSheet :
    ∃ v, (evaluate selfSheet Dimensions.standard ⟨0, 0⟩).run [] = (v, []) ∧ v.isError = true := by
  have hbody : selfSheet.formula? ⟨0, 0⟩ = some "COUNT(A1:A1)+A1".toList := by decide +kernel
  have hrefers : RefersTo selfSheet Dimensions.standard ⟨0, 0⟩ ⟨0, 0⟩ :=
    ⟨by decide, _, hbody, by decide +kernel⟩
  obtain ⟨v, hv, hwalk, -⟩ := (evaluate_ends selfSheet Dimensions.standard).2 [] ⟨0, 0⟩
  exact ⟨v, hv, hwalk (fun _ => ⟨0, 0⟩) rfl (fun _ _ => by rw [hbody]; rfl) fun _ _ => hrefers⟩

-- A call swallows the errors of the cells that it covers, a reference outside calls passes them on.
example : valueAt (Grid.ofList [(⟨0, 0⟩, "=COUNT(A1:A1)+1")]) Dimensions.standard ⟨0, 0⟩ = .number 1 ∧
    valueAt (Grid.ofList [(⟨0, 0⟩, "=COUNT(A1:A1)+A1")]) Dimensions.standard ⟨0, 0⟩ =
      .error .reference := by
  constructor <;> decide +kernel

end Spreadsheet.Formula
