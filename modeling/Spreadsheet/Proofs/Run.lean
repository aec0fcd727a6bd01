/-!
# Spreadsheet.Proofs.Run — invariants of runs

A run takes steps one after the other, `as.foldl step s`.  `Along step ok s as` says that each of
its steps is allowed in the state in which it is taken; what every allowed step preserves holds
after the run.
-/

namespace Spreadsheet

namespace Run

variable {σ α : Type}

/-- Every step of a run is allowed where it is taken. -/
def Along (step : σ → α → σ) (ok : σ → α → Prop) : σ → List α → Prop
  | _, [] => True
  | s, a :: as => ok s a ∧ Along step ok (step s a) as

variable {step : σ → α → σ} {ok : σ → α → Prop}

instance decidableAlong [∀ s a, Decidable (ok s a)] :
    ∀ (s : σ) (as : List α), Decidable (Along step ok s as)
  | _, [] => .isTrue trivial
  | s, a :: as =>
    have : Decidable (Along step ok (step s a) as) := decidableAlong (step s a) as
    inferInstanceAs (Decidable (ok s a ∧ Along step ok (step s a) as))

theorem along_append {s : σ} {as bs : List α} :
    Along step ok s (as ++ bs) ↔ Along step ok s as ∧ Along step ok (as.foldl step s) bs := by
  induction as generalizing s with
  | nil => simp [Along]
  | cons a as ih => simp [Along, ih, and_assoc]

theorem Along.mono {ok' : σ → α → Prop} (hok : ∀ s a, ok s a → ok' s a) {s : σ} {as : List α}
    (h : Along step ok s as) : Along step ok' s as := by
  induction as generalizing s with
  | nil => trivial
  | cons a as ih => exact ⟨hok s a h.1, ih h.2⟩

/-- What every allowed step preserves holds after the run. -/
theorem Along.invariant {I : σ → Prop} (hstep : ∀ s a, ok s a → I s → I (step s a)) {s : σ}
    {as : List α} (h : Along step ok s as) (hs : I s) : I (as.foldl step s) := by
  induction as generalizing s with
  | nil => exact hs
  | cons a as ih => exact ih h.2 (hstep s a h.1 hs)

end Run

end Spreadsheet
