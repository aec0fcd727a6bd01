/-!
# Spreadsheet.SaveTimer — saving after a quiet period

Every change starts the quiet period anew; when it has passed, the save is due.  Times are counted
in milliseconds.
-/

namespace Spreadsheet

/-- The length of the quiet period and, if a save is pending, when it falls due. -/
structure SaveTimer where
  delay : Nat
  deadline : Option Nat
deriving DecidableEq, Repr

namespace SaveTimer

/-- The quiet period when nothing else is said. -/
def standardDelay : Nat := 1000

/-- A timer with nothing pending. -/
def idle (delay : Nat) : SaveTimer := ⟨delay, none⟩

/-- Starts the quiet period anew. -/
def restart (t : SaveTimer) (now : Nat) : SaveTimer := { t with deadline := some (now + t.delay) }

/-- Whether a save is pending. -/
def isRunning (t : SaveTimer) : Bool := t.deadline.isSome

/-- Whether a save is pending and its time has come. -/
def hasExpired (t : SaveTimer) (now : Nat) : Bool := t.deadline.any fun d => d ≤ now

/-- Takes the pending save if it is due. -/
def fire (t : SaveTimer) (now : Nat) : Bool × SaveTimer :=
  if t.hasExpired now then (true, { t with deadline := none }) else (false, t)

/-- Drops the pending save, and tells whether there was one. -/
def cancel (t : SaveTimer) : Bool × SaveTimer := (t.isRunning, { t with deadline := none })

/-- How long until the pending save is due. -/
def remaining (t : SaveTimer) (now : Nat) : Option Nat := t.deadline.map fun d => d - now

end SaveTimer

end Spreadsheet
