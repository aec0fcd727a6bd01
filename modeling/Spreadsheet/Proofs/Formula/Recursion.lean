import Spreadsheet.Proofs.Arithmetic.Results
import Spreadsheet.Proofs.Formula.Aggregate
import Spreadsheet.Proofs.Formula.Spliced
import Spreadsheet.Proofs.Formula.Trail

/-!
# Spreadsheet.Proofs.Formula.Recursion — evaluation calls itself on longer trails

The room that is left on the trail bounds the recursion, and where it is used up evaluation gives the
error that a test of the trail's length would give.  So evaluation is the recursion with the two
guards, one against cells that are on the trail and one against trails that are full.  The numbers it
gives are finite.
-/

namespace Spreadsheet

/-- The text behind the `=` of a formula cell. -/
def Grid.formula? (g : Grid) (p : Position) : Option (List Char) :=
  match (g.get? p).map String.toList with
  | some ('=' :: body) => some body
  | _ => none

theorem Grid.formula?_eq_some_iff {g : Grid} {p : Position} {body : List Char} :
    g.formula? p = some body ↔ ∃ raw, g.get? p = some raw ∧ raw.toList = '=' :: body := by
  rw [formula?]
  constructor
  · intro h
    split at h
    · rename_i hraw
      cases h
      exact Option.map_eq_some_iff.1 hraw
    · cases h
  · rintro ⟨raw, hraw, hbody⟩
    rw [hraw, Option.map_some, hbody]
    rfl

namespace Formula

section Recursion

variable (grid : Grid) (dims : Dimensions)

/-- The value of a cell that is no formula. -/
def plainValue (p : Position) : Value :=
  match grid.get? p with
  | none => .empty
  | some raw => literal raw

theorem valueWith_of_formula {formula : List Char → Evaluation Value} {p : Position}
    {body : List Char} (h : grid.formula? p = some body) (t : Trail) :
    (valueWith grid formula p).run t =
      (if p ∈ t then pure (.error .reference) else formula body : Evaluation Value).run t := by
  obtain ⟨raw, hraw, hbody⟩ := Grid.formula?_eq_some_iff.1 h
  exact run_valueWith grid hraw hbody t

theorem valueWith_of_plain {formula : List Char → Evaluation Value} {p : Position}
    (h : grid.formula? p = none) : valueWith grid formula p = pure (plainValue grid p) := by
  rw [valueWith, plainValue]
  cases hraw : grid.get? p with
  | none => rfl
  | some raw =>
    simp only
    split
    · rename_i body hbody
      rw [Grid.formula?_eq_some_iff.2 ⟨raw, hraw, hbody⟩] at h
      cases h
    · rfl

theorem valueWithin_of_plain {p : Position} (h : grid.formula? p = none) (room : Nat) :
    valueWithin grid dims room p = pure (plainValue grid p) := by
  cases room with
  | zero => exact valueWith_of_plain grid h
  | succ room => exact valueWith_of_plain grid h

/-- The value of a cell on a trail. -/
theorem valueOn_eq (t : Trail) (p : Position) : valueOn grid dims t p =
    match grid.formula? p with
    | none => plainValue grid p
    | some body =>
      if p ∈ t then .error .reference
      else if trailLimit ≤ t.length then .error .failed
      else resultValue (bodyResult dims (valueOn grid dims (t ++ [p])) body) := by
  cases h : grid.formula? p with
  | none => rw [valueOn, evaluate_run, valueWithin_of_plain grid dims h]; rfl
  | some body =>
    obtain ⟨raw, hraw, hbody⟩ := Grid.formula?_eq_some_iff.1 h
    simp only
    split
    · rename_i hp
      rw [valueOn, evaluate_run]
      cases trailLimit - t.length <;> rw [valueWithin, valueWith_of_formula grid h, if_pos hp] <;> rfl
    · rename_i hp
      split
      · -- with no room left there is no need to know what the formula is
        rename_i hfull
        rw [valueOn, evaluate_run, Nat.sub_eq_zero_of_le hfull, valueWithin,
          valueWith_of_formula grid h, if_neg hp]
        rfl
      · rename_i hroom
        exact valueOn_of_formula grid dims (Nat.lt_of_not_le hroom) hp hraw hbody

theorem valueOn_of_blank (t : Trail) {p : Position} (h : grid.get? p = none) :
    valueOn grid dims t p = .empty :=
  (reads_evaluate grid dims t p).unique (valueWithin_of_blank grid dims h _ t)

/-- One step of evaluation, in which `value` evaluates the cells that a formula needs: a formula is
refused if its cell is on the trail or the trail is full, and otherwise evaluated with its cell at the
end of the trail. -/
def evaluateStep (value : Position → Evaluation Value) (p : Position) : Evaluation Value :=
  valueWith grid (fun body => do
    if trailLimit ≤ (← get).length then return .error .failed
    onTrail p (resultValue <$> (bodyValue dims grid.positionsIn value body).run)) p

theorem run_guard {α : Type} (n : Nat) (a : α) (act : Evaluation α) (t : Trail) :
    (do if n ≤ (← get).length then return a
        act : Evaluation α).run t = (if n ≤ t.length then pure a else act : Evaluation α).run t := by
  by_cases h : n ≤ t.length
  · simp [h]
  · simp [h]

/-- A step needs values on the longer trail only, and those only if neither guard ends it. -/
theorem reads_evaluateStep {value : Position → Evaluation Value} {t : Trail} {p : Position}
    (hvalue : t.length < trailLimit →
      ∀ q, Reads (t ++ [p]) (value q) (valueOn grid dims (t ++ [p]) q)) :
    Reads t (evaluateStep grid dims value p) (valueOn grid dims t p) := by
  rw [valueOn_eq, evaluateStep, Reads]
  cases h : grid.formula? p with
  | none => rw [valueWith_of_plain grid h]; rfl
  | some body =>
    rw [valueWith_of_formula grid h]
    simp only
    by_cases hp : p ∈ t
    · rw [if_pos hp, if_pos hp]
      rfl
    · rw [if_neg hp, if_neg hp, run_guard]
      -- the guards come before the formula, the trail first and then its length
      by_cases hfull : trailLimit ≤ t.length
      · rw [if_pos hfull, if_pos hfull]
        rfl
      · rw [if_neg hfull, if_neg hfull]
        have hbody : Reads (t ++ [p]) (bodyValue dims grid.positionsIn value body).run
            (bodyResult dims (valueOn grid dims (t ++ [p])) body) :=
          reads_bodyValue (hvalue (Nat.lt_of_not_le hfull))
            (fun q => valueOn_of_blank grid dims (t ++ [p])) body
        exact (hbody.map resultValue).onTrail

/-- Evaluation is the one function that is its own step, so the recursion ends by itself, and the room
it is given here makes no difference. -/
theorem eq_evaluateStep_iff {value : Position → Evaluation Value} :
    value = evaluateStep grid dims value ↔ value = evaluate grid dims := by
  constructor
  · intro hstep
    have hreads : ∀ n t p, trailLimit - t.length = n →
        Reads t (value p) (valueOn grid dims t p) := by
      -- the room on the trail is what the recursion uses up
      intro n
      induction n with
      | zero =>
        intro t p hroom
        rw [hstep]
        exact reads_evaluateStep grid dims fun hlt => absurd hlt (by omega)
      | succ n ih =>
        intro t p hroom
        rw [hstep]
        refine reads_evaluateStep grid dims fun _ q => ih _ q ?_
        rw [List.length_append, List.length_singleton]
        omega
    exact funext fun p => StateT.ext fun t =>
      (hreads _ t p rfl).trans (reads_evaluate grid dims t p).symm
  · rintro rfl
    exact funext fun p => StateT.ext fun t => (reads_evaluate grid dims t p).trans
      (reads_evaluateStep grid dims fun _ => reads_evaluate grid dims (t ++ [p])).symm

end Recursion

end Formula

/-! ### The numbers of cells -/

namespace Formula

theorem isFinite_rounded {x : Float} (h : x.isFinite = true) : (rounded x).isFinite = true := by
  unfold rounded
  extract_lets r
  split
  · exact h
  · rename_i hr
    split
    · decide +kernel
    · rwa [Bool.not_eq_true', Bool.not_eq_false] at hr

theorem isFinite_of_residualValue {cs : List Char} {x : Float} (h : residualValue cs = .ok x) :
    x.isFinite = true := by
  rw [residualValue] at h
  split at h
  · split at h
    · rename_i y hy
      cases h
      obtain ⟨e, -, he⟩ := exists_ok_of_bind_ok hy
      exact isFinite_rounded (Expr.isFinite_of_evaluate he)
    · cases h
  · cases h

theorem isFinite_of_bodyResult {dims : Dimensions} {valueOf : Position → Value} {body : List Char}
    {x : Float} (h : bodyResult dims valueOf body = .ok x) : x.isFinite = true := by
  obtain ⟨aggregated, -, h⟩ := exists_ok_of_bind_ok h
  obtain ⟨residual, -, h⟩ := exists_ok_of_bind_ok h
  exact isFinite_of_residualValue h

theorem isFinite_of_literal {raw : String} {x : Float} (h : literal raw = .number x) :
    x.isFinite = true := by
  rw [literal] at h
  split at h
  · split at h
    · rename_i hx
      cases h
      exact hx
    · cases h
  · cases h

/-- All numbers among the values of cells are finite. -/
def FiniteNumbers (valueOf : Position → Value) : Prop :=
  ∀ q x, valueOf q = .number x → x.isFinite = true

theorem finiteNumbers_valueOn (grid : Grid) (dims : Dimensions) (t : Trail) :
    FiniteNumbers (valueOn grid dims t) := by
  intro q x h
  rw [valueOn_eq] at h
  split at h
  · rw [plainValue] at h
    split at h
    · cases h
    · exact isFinite_of_literal h
  · rename_i body hbody
    split_ifs at h
    cases hr : bodyResult dims (valueOn grid dims (t ++ [q])) body with
    | error e => rw [hr] at h; cases h
    | ok y =>
      rw [hr] at h
      cases h
      exact isFinite_of_bodyResult hr

end Formula

end Spreadsheet
