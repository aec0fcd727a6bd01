import Spreadsheet.Proofs.Arithmetic.Phrase
import Spreadsheet.Proofs.Number.Double

/-!
# Spreadsheet.Proofs.Arithmetic.Results — the results of an expression

Evaluation ends at a division by zero and at the first result that is not finite.  Computed in
doubles without these tests, an expression has a result at every node, and one that divides by zero
is not finite either.  So an expression has a value exactly if all its results are finite, and the
value is the result at its root.
-/

namespace Spreadsheet

/-- The result of an operation in doubles, which may be infinite or no number. -/
def Operation.result : Operation → Float → Float → Float
  | add, x, y => x + y
  | sub, x, y => x - y
  | mul, x, y => x * y
  | div, x, y => x / y

/-- An operation gives its result, or else refuses one that is not finite. -/
theorem Operation.apply_cases (op : Operation) (x y : Float) :
    op.apply x y = .ok (op.result x y) ∨
      op.apply x y = .error .zeroDivisor ∧ (op.result x y).isFinite = false := by
  cases op with
  | add => exact .inl rfl
  | sub => exact .inl rfl
  | mul => exact .inl rfl
  | div =>
    by_cases hzero : (y == 0) = true
    · exact .inr ⟨if_pos hzero, Binary64.isFinite_div_zero x hzero⟩
    · exact .inl (if_neg hzero)

namespace Expr

theorem finite_eq_ok_iff {x y : Float} : finite x = .ok y ↔ x = y ∧ x.isFinite = true := by
  rw [finite]
  split
  · rename_i hx
    rw [Except.ok.injEq, and_iff_left hx]
  · rename_i hx
    exact iff_of_false (by rintro ⟨⟩) fun h => hx h.2

theorem apply_bind_finite_eq_ok_iff {op : Operation} {x y z : Float} :
    (op.apply x y >>= finite) = .ok z ↔ op.result x y = z ∧ (op.result x y).isFinite = true := by
  rcases op.apply_cases x y with happly | ⟨happly, hresult⟩
  · rw [happly]
    exact finite_eq_ok_iff
  · rw [happly, hresult]
    exact iff_of_false (by rintro ⟨⟩) (by rintro ⟨-, ⟨⟩⟩)

/-- The result of an expression in doubles. -/
def result : Expr → Float
  | number x => x
  | neg e => -e.result
  | binary op lhs rhs => op.result lhs.result rhs.result

/-- The results at all nodes of an expression, its own first. -/
def results : Expr → List Float
  | number x => [x]
  | neg e => -e.result :: e.results
  | binary op lhs rhs => op.result lhs.result rhs.result :: (lhs.results ++ rhs.results)

theorem result_mem_results (e : Expr) : e.result ∈ e.results := by
  cases e <;> exact List.mem_cons_self

/-- An expression has a value exactly if all its results are finite. -/
theorem evaluate_eq_ok_iff {e : Expr} {x : Float} :
    e.evaluate = .ok x ↔ e.result = x ∧ ∀ y ∈ e.results, y.isFinite = true := by
  -- each node tests its own result, and the results below it are those of its operands
  induction e generalizing x with
  | number y => rw [evaluate, finite_eq_ok_iff, results, List.forall_mem_singleton, result]
  | neg e ih =>
    rw [results, List.forall_mem_cons]
    constructor
    · intro h
      obtain ⟨y, hy, h⟩ := exists_ok_of_bind_ok h
      obtain ⟨rfl, hfinite⟩ := ih.1 hy
      obtain ⟨hx, hroot⟩ := finite_eq_ok_iff.1 h
      exact ⟨hx, hroot, hfinite⟩
    · rintro ⟨hx, hroot, hfinite⟩
      rw [evaluate, ih.2 ⟨rfl, hfinite⟩]
      exact finite_eq_ok_iff.2 ⟨hx, hroot⟩
  | binary op lhs rhs ihl ihr =>
    rw [results, List.forall_mem_cons, List.forall_mem_append]
    constructor
    · intro h
      obtain ⟨y, hy, h⟩ := exists_ok_of_bind_ok h
      obtain ⟨z, hz, h⟩ := exists_ok_of_bind_ok h
      obtain ⟨rfl, hleft⟩ := ihl.1 hy
      obtain ⟨rfl, hright⟩ := ihr.1 hz
      obtain ⟨hx, hroot⟩ := apply_bind_finite_eq_ok_iff.1 h
      exact ⟨hx, hroot, hleft, hright⟩
    · rintro ⟨hx, hroot, hleft, hright⟩
      calc (binary op lhs rhs).evaluate
        _ = (lhs.evaluate >>= fun y => rhs.evaluate >>= fun z => op.apply y z >>= finite) := rfl
        _ = (rhs.evaluate >>= fun z => op.apply lhs.result z >>= finite) := by
          rw [ihl.2 ⟨rfl, hleft⟩]
          rfl
        _ = (op.apply lhs.result rhs.result >>= finite) := by
          rw [ihr.2 ⟨rfl, hright⟩]
          rfl
        _ = .ok x := apply_bind_finite_eq_ok_iff.2 ⟨hx, hroot⟩

theorem isFinite_of_evaluate {e : Expr} {x : Float} (h : e.evaluate = .ok x) :
    x.isFinite = true := by
  obtain ⟨rfl, hfinite⟩ := evaluate_eq_ok_iff.1 h
  exact hfinite e.result (result_mem_results e)

end Expr

/-- The results at a leaf are among those of the tree. -/
theorem Arithmetic.Phrase.mem_results {α : Type} {leaf : α → Expr} {c : Category} {s : Phrase α c}
    {a : α} (ha : a ∈ s.operands) {x : Float} (hx : x ∈ (leaf a).results) :
    x ∈ (s.expr leaf).results := by
  induction s with
  | operand b => exact List.mem_singleton.1 ha ▸ hx
  | group s ih => exact ih ha
  | plus s ih => exact ih ha
  | minus s ih => exact List.mem_cons_of_mem _ (ih ha)
  | single s ih => exact ih ha
  | product op h l r ihl ihr =>
    refine List.mem_cons_of_mem _ (List.mem_append.2 ?_)
    exact (List.mem_append.1 ha).imp ihl ihr
  | alone s ih => exact ih ha
  | sum op h l r ihl ihr =>
    refine List.mem_cons_of_mem _ (List.mem_append.2 ?_)
    exact (List.mem_append.1 ha).imp ihl ihr
  | spaced before s after ih => exact ih ha

end Spreadsheet
