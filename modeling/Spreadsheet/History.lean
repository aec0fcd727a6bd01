/-!
# Spreadsheet.History — undo and redo

A history is a list of states, oldest first, with a cursor.  The state before each change is
pushed; the state after the newest change is not in the list until the first undo appends it, so
that a later redo can come back to it.  Equal neighbours are merged, a push drops what could be
redone, and the oldest states are dropped beyond the limit.
-/

namespace Spreadsheet

/-- The states that undo and redo go through. -/
structure History (α : Type) where
  /-- The states, oldest first. -/
  states : List α
  cursor : Nat
  /-- Whether the live state is newer than the entry at the cursor. -/
  liveIsNewer : Bool
  limit : Nat
deriving DecidableEq, Repr

namespace History

variable {α : Type} [DecidableEq α]

/-- How many states are kept when nothing else is said. -/
def standardLimit : Nat := 100

/-- A history without states that keeps at least two and at most `limit`. -/
def keeping (limit : Nat) : History α := ⟨[], 0, false, max limit 2⟩

/-- Whether there is an older state. -/
def canUndo (h : History α) : Bool := h.liveIsNewer || 0 < h.cursor

/-- Whether there is a newer state. -/
def canRedo (h : History α) : Bool := !h.liveIsNewer && h.cursor + 1 < h.states.length

/-- The states with one more at the end, unless the last one equals it. -/
def appended (es : List α) (s : α) : List α := if es.getLast? = some s then es else es ++ [s]

/-- Drops the oldest states beyond the limit. -/
def trim (h : History α) : History α :=
  let excess := h.states.length - h.limit
  { h with states := h.states.drop excess, cursor := h.cursor - excess }

/-- Records the state before a change. -/
def push (h : History α) (s : α) : History α :=
  let states := appended (h.states.take (h.cursor + 1)) s
  trim { h with states := states, cursor := states.length - 1, liveIsNewer := true }

/-- The history with the live state recorded, if it was not yet. -/
def settle (h : History α) (live : α) : History α :=
  if h.liveIsNewer then
    if h.states.getLast? = some live then { h with liveIsNewer := false }
    else
      trim
        { h with
          states := h.states ++ [live]
          cursor := h.states.length
          liveIsNewer := false }
  else h

/-- Steps back to the state before, if there is one. -/
def undo (h : History α) (live : α) : Option α × History α :=
  let h := h.settle live
  if h.cursor = 0 then (none, h)
  else (h.states[h.cursor - 1]?, { h with cursor := h.cursor - 1 })

/-- Steps forward to the next state, if there is one. -/
def redo (h : History α) : Option α × History α :=
  if h.canRedo then (h.states[h.cursor + 1]?, { h with cursor := h.cursor + 1 }) else (none, h)

end History

end Spreadsheet
