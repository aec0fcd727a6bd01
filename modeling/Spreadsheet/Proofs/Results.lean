/-!
# Spreadsheet.Proofs.Results — computations that may fail

What a computation that succeeds says about its parts.
-/

namespace Spreadsheet

variable {ε α β : Type}

/-- A computation succeeds if both its parts do. -/
theorem exists_ok_of_bind_ok {x : Except ε α} {k : α → Except ε β} {b : β}
    (h : x >>= k = .ok b) : ∃ a, x = .ok a ∧ k a = .ok b := by
  cases x with
  | error e => cases h
  | ok a => exact ⟨a, rfl, h⟩

theorem exists_ok_of_map_ok {f : α → β} {x : Except ε α} {b : β} (h : f <$> x = .ok b) :
    ∃ a, x = .ok a ∧ f a = b := by
  cases x with
  | error e => cases h
  | ok a =>
    cases h
    exact ⟨a, rfl, rfl⟩

end Spreadsheet
