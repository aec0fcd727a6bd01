import Mathlib.Data.Nat.PSub
import Spreadsheet.Proofs.History.Timeline

/-!
# Spreadsheet.Proofs.History.WellFormed — a history stays well formed under any use

A history answers calls, with whatever states and in whatever order, not only with those of a sheet
that is worked on.  `WellFormed` says where the cursor stands and what the list looks like, and every
call keeps it.  The calls are stated a second time with differences that may not exist and with
indices that may lie behind the end; on a well-formed history they give what the calls give, so
nothing is ever cut off at zero or looked up in vain.
-/

namespace Spreadsheet

namespace History

/-! ### Calls -/

section Defs

/-- What can be asked of a history. -/
inductive Call (α : Type) where
  | push (s : α)
  | undo (live : α)
  | redo
deriving DecidableEq, Repr

variable {α : Type}

/-- The cursor is at zero in an empty list and at an entry otherwise, at the last one while the live
state is newer; there are no more entries than the limit allows, and no two neighbours are equal. -/
structure WellFormed (h : History α) : Prop where
  two_le : 2 ≤ h.limit
  room : h.states.length ≤ h.limit
  cursor_eq : h.states = [] → h.cursor = 0
  cursor_lt : h.states ≠ [] → h.cursor < h.states.length
  newest : h.liveIsNewer = true → h.cursor + 1 = h.states.length
  distinct : h.states.IsChain (· ≠ ·)

variable [DecidableEq α]

/-- The answer to a call, and the history after it.  A push has no answer. -/
def call (h : History α) : Call α → Option α × History α
  | .push s => (none, h.push s)
  | .undo live => h.undo live
  | .redo => h.redo

/-- A new history after calls. -/
def after (limit : Nat) (cs : List (Call α)) : History α :=
  cs.foldl (fun h c => (h.call c).2) (keeping limit)

end Defs

/-! ### Calls that may reach out of range -/

section Checked

variable {α : Type}

/-- The list without its first `n` elements, if it has so many. -/
def dropFirst? (n : Nat) (es : List α) : Option (List α) :=
  if n ≤ es.length then some (es.drop n) else none

/-- Drops the oldest states beyond the limit, if there are so many before the cursor. -/
def trim? (h : History α) : Option (History α) :=
  if h.limit < h.states.length then do
    let excess ← Nat.psub h.states.length h.limit
    let states ← dropFirst? excess h.states
    let cursor ← Nat.psub h.cursor excess
    return { h with states, cursor }
  else some h

/-- The list with the cursor at its last state, if it has one, trimmed. -/
def atLast? (h : History α) (states : List α) (liveIsNewer : Bool) : Option (History α) := do
  let cursor ← Nat.psub states.length 1
  trim? { h with states, cursor, liveIsNewer }

/-- Steps forward, if there is a state to step to. -/
def redo? (h : History α) : Option (Option α × History α) :=
  if h.canRedo then do
    let s ← h.states[h.cursor + 1]?
    return (some s, { h with cursor := h.cursor + 1 })
  else some (none, h)

variable [DecidableEq α]

/-- Records the state before a change, if every number and range that is used exists. -/
def push? (h : History α) (s : α) : Option (History α) :=
  atLast? h (appended (h.states.take (h.cursor + 1)) s) true

/-- Records the live state, if every number and range that is used exists. -/
def settle? (h : History α) (live : α) : Option (History α) :=
  if h.liveIsNewer then
    if h.states.getLast? = some live then some { h with liveIsNewer := false }
    else atLast? h (h.states ++ [live]) false
  else some h

/-- Steps back, if every number that is used and the state to step to exist. -/
def undo? (h : History α) (live : α) : Option (Option α × History α) := do
  let h ← h.settle? live
  if h.cursor = 0 then return (none, h)
  else
    let cursor ← Nat.psub h.cursor 1
    let s ← h.states[cursor]?
    return (some s, { h with cursor })

/-- The answer to a call and the history after it, if nothing reaches out of range. -/
def call? (h : History α) : Call α → Option (Option α × History α)
  | .push s => (h.push? s).map fun h => (none, h)
  | .undo live => h.undo? live
  | .redo => h.redo?

end Checked

variable {α : Type} {h : History α} {states : List α} {newer : Bool} {s live : α}

/-! ### A list with the cursor at its end -/

/-- However long the list is, it is well formed once it is trimmed. -/
theorem wellFormed_trim (hl : 2 ≤ h.limit) (filled : states ≠ []) (distinct : states.IsChain (· ≠ ·)) :
    WellFormed (trim { h with states, cursor := states.length - 1, liveIsNewer := newer }) := by
  have hpos := List.length_pos_of_ne_nil filled
  have hlength : (states.drop (states.length - h.limit)).length =
      states.length - (states.length - h.limit) := List.length_drop
  refine ⟨hl, ?_, fun hnil => ?_, fun _ => ?_, fun _ => ?_, distinct.drop _⟩
  · show (states.drop (states.length - h.limit)).length ≤ h.limit
    omega
  · have hzero : (states.drop (states.length - h.limit)).length = 0 := by
      rw [show states.drop (states.length - h.limit) = [] from hnil, List.length_nil]
    omega
  · show states.length - 1 - (states.length - h.limit) <
      (states.drop (states.length - h.limit)).length
    omega
  · show states.length - 1 - (states.length - h.limit) + 1 =
      (states.drop (states.length - h.limit)).length
    omega

theorem atLast?_eq (hl : 2 ≤ h.limit) (filled : states ≠ []) :
    atLast? h states newer =
      some (trim { h with states, cursor := states.length - 1, liveIsNewer := newer }) := by
  have hpos := List.length_pos_of_ne_nil filled
  have hcursor : Nat.psub states.length 1 = some (states.length - 1) := Nat.psub_eq_sub hpos
  rw [atLast?, hcursor]
  show trim? { h with states, cursor := states.length - 1, liveIsNewer := newer } = _
  unfold trim?
  -- nothing is taken from too little: the cursor is at the end when the first states are dropped
  split_ifs with hlong
  · have hlong : h.limit < states.length := hlong
    have hexcess : Nat.psub states.length h.limit = some (states.length - h.limit) :=
      Nat.psub_eq_sub (by omega)
    have hdrop : dropFirst? (states.length - h.limit) states =
        some (states.drop (states.length - h.limit)) := if_pos (by omega)
    have hmoved : Nat.psub (states.length - 1) (states.length - h.limit) =
        some (states.length - 1 - (states.length - h.limit)) := Nat.psub_eq_sub (by omega)
    simp only [hexcess, hdrop, hmoved, Option.bind_eq_bind, Option.bind_some]
    rfl
  · rw [trim_of_room _ (Nat.le_of_not_lt hlong)]

/-! ### One call -/

theorem wellFormed_keeping (limit : Nat) : WellFormed (keeping limit : History α) where
  two_le := Nat.le_max_right _ _
  room := Nat.zero_le _
  cursor_eq _ := rfl
  cursor_lt hne := absurd rfl hne
  newest hnewer := nomatch hnewer
  distinct := .nil

/-- The cursor of a history whose states are all in the list may stand at each of them. -/
theorem WellFormed.moveTo (wf : h.WellFormed) (hold : h.liveIsNewer = false) {n : Nat}
    (hn : n < h.states.length) : WellFormed { h with cursor := n } where
  two_le := wf.two_le
  room := wf.room
  cursor_eq hnil := by
    have hnil : h.states = [] := hnil
    rw [hnil] at hn
    exact absurd hn (Nat.not_lt_zero n)
  cursor_lt _ := hn
  newest hnewer := by
    have hnewer : h.liveIsNewer = true := hnewer
    rw [hold] at hnewer
    cases hnewer
  distinct := wf.distinct

theorem cursor_succ_lt (hmore : h.canRedo = true) :
    h.liveIsNewer = false ∧ h.cursor + 1 < h.states.length := by
  simpa [canRedo] using hmore

theorem WellFormed.redo (wf : h.WellFormed) : h.redo.2.WellFormed := by
  unfold History.redo
  split_ifs with hmore
  · obtain ⟨hold, hlt⟩ := cursor_succ_lt hmore
    exact wf.moveTo hold hlt
  · exact wf

theorem redo?_eq (h : History α) : h.redo? = some h.redo := by
  unfold redo? History.redo
  split_ifs with hmore
  · rw [List.getElem?_eq_getElem (cursor_succ_lt hmore).2]
    rfl
  · rfl

theorem isSome_redo (h : History α) : h.redo.1.isSome = h.canRedo := by
  unfold History.redo
  split_ifs with hmore
  · rw [List.getElem?_eq_getElem (cursor_succ_lt hmore).2, hmore]
    rfl
  · rw [Bool.not_eq_true] at hmore
    rw [hmore]
    rfl

/-- Away from the start there is a state before the cursor. -/
theorem WellFormed.pred_lt (wf : h.WellFormed) (hstart : h.cursor ≠ 0) :
    h.cursor - 1 < h.states.length := by
  have hne : h.states ≠ [] := fun hnil => hstart (wf.cursor_eq hnil)
  have := wf.cursor_lt hne
  omega

theorem isChain_concat {es : List α} (distinct : es.IsChain (· ≠ ·)) (hs : es.getLast? ≠ some s) :
    (es ++ [s]).IsChain (· ≠ ·) := by
  refine distinct.append (.singleton s) fun a ha b hb => ?_
  obtain rfl : s = b := Option.some.inj hb
  rintro rfl
  exact hs ha

section Live

variable [DecidableEq α]

theorem appended_ne_nil (es : List α) (s : α) : appended es s ≠ [] := by
  unfold appended
  split_ifs with hlast
  · rintro rfl
    cases hlast
  · exact List.append_ne_nil_of_right_ne_nil _ (List.cons_ne_nil s [])

theorem isChain_appended {es : List α} (distinct : es.IsChain (· ≠ ·)) (s : α) :
    (appended es s).IsChain (· ≠ ·) := by
  unfold appended
  split_ifs with hlast
  · exact distinct
  · exact isChain_concat distinct hlast

theorem WellFormed.push (wf : h.WellFormed) (s : α) : (h.push s).WellFormed :=
  wellFormed_trim wf.two_le (appended_ne_nil _ s) (isChain_appended (wf.distinct.take _) s)

theorem WellFormed.push?_eq (wf : h.WellFormed) (s : α) : h.push? s = some (h.push s) :=
  atLast?_eq wf.two_le (appended_ne_nil _ s)

/-- A live state that is not the last one in the list is put behind it. -/
theorem settle_of_newer (hnewer : h.liveIsNewer = true) (hlast : h.states.getLast? ≠ some live) :
    h.settle live =
      trim { h with
        states := h.states ++ [live]
        cursor := (h.states ++ [live]).length - 1
        liveIsNewer := false } := by
  have hlength : (h.states ++ [live]).length - 1 = h.states.length := by simp
  rw [settle, if_pos hnewer, if_neg hlast, hlength]

theorem WellFormed.settle (wf : h.WellFormed) (live : α) :
    (h.settle live).WellFormed ∧ (h.settle live).liveIsNewer = false := by
  by_cases hnewer : h.liveIsNewer = true
  · by_cases hlast : h.states.getLast? = some live
    · rw [History.settle, if_pos hnewer, if_pos hlast]
      exact ⟨{ wf with newest := fun hnewer => absurd hnewer Bool.false_ne_true }, rfl⟩
    · rw [settle_of_newer hnewer hlast]
      exact ⟨wellFormed_trim wf.two_le (by simp) (isChain_concat wf.distinct hlast), rfl⟩
  · rw [History.settle, if_neg hnewer]
    exact ⟨wf, Bool.not_eq_true _ ▸ hnewer⟩

theorem WellFormed.settle?_eq (wf : h.WellFormed) (live : α) :
    h.settle? live = some (h.settle live) := by
  by_cases hnewer : h.liveIsNewer = true
  · by_cases hlast : h.states.getLast? = some live
    · rw [settle?, History.settle, if_pos hnewer, if_pos hlast, if_pos hnewer, if_pos hlast]
    · rw [settle?, if_pos hnewer, if_neg hlast, settle_of_newer hnewer hlast]
      exact atLast?_eq wf.two_le (by simp)
  · rw [settle?, History.settle, if_neg hnewer, if_neg hnewer]

theorem WellFormed.undo (wf : h.WellFormed) (live : α) : (h.undo live).2.WellFormed := by
  obtain ⟨wf', hold⟩ := wf.settle live
  simp only [History.undo]
  split_ifs with hstart
  · exact wf'
  · exact wf'.moveTo hold (wf'.pred_lt hstart)

theorem WellFormed.undo?_eq (wf : h.WellFormed) (live : α) : h.undo? live = some (h.undo live) := by
  obtain ⟨wf', -⟩ := wf.settle live
  rw [undo?, wf.settle?_eq live]
  simp only [History.undo, Option.bind_eq_bind, Option.bind_some]
  split_ifs with hstart
  · rfl
  · have hpred : Nat.psub (h.settle live).cursor 1 = some ((h.settle live).cursor - 1) :=
      Nat.psub_eq_sub (Nat.one_le_iff_ne_zero.2 hstart)
    have hstate := List.getElem?_eq_getElem (wf'.pred_lt hstart)
    simp only [hpred, hstate, Option.bind_some]
    rfl

/-- Recording the live state leaves the cursor at the start only if there is nothing before it. -/
theorem WellFormed.cursor_settle (wf : h.WellFormed) (live : α) :
    (h.settle live).cursor ≠ 0 ↔ h.canUndo = true ∧ h.states ≠ [live] := by
  by_cases hnewer : h.liveIsNewer = true
  · have hcan : h.canUndo = true := by rw [canUndo, hnewer, Bool.true_or]
    have hend := wf.newest hnewer
    have hl := wf.two_le
    have hroom := wf.room
    rw [and_iff_right hcan]
    -- a live state that is the last one already is not added again
    by_cases hlast : h.states.getLast? = some live
    · rw [History.settle, if_pos hnewer, if_pos hlast]
      show h.cursor ≠ 0 ↔ h.states ≠ [live]
      obtain ⟨before, hbefore⟩ := List.getLast?_eq_some_iff.1 hlast
      rw [hbefore, List.length_append, List.length_singleton] at hend
      rw [hbefore, ne_eq, ne_eq, List.append_eq_singleton_iff]
      have : h.cursor = before.length := by omega
      rw [this, List.length_eq_zero_iff]
      simp
    · have hne : h.states ≠ [live] := by
        rintro hone
        rw [hone] at hlast
        exact hlast rfl
      rw [settle_of_newer hnewer hlast, iff_true_right hne]
      show (h.states ++ [live]).length - 1 - ((h.states ++ [live]).length - h.limit) ≠ 0
      rw [List.length_append, List.length_singleton]
      omega
  · rw [History.settle, if_neg hnewer]
    rw [Bool.not_eq_true] at hnewer
    rw [canUndo, hnewer, Bool.false_or, decide_eq_true_iff, Nat.pos_iff_ne_zero, iff_self_and]
    rintro hstart hone
    have hlt := wf.cursor_lt (hone ▸ List.cons_ne_nil live [])
    rw [hone, List.length_singleton] at hlt
    omega

theorem WellFormed.isSome_undo_iff (wf : h.WellFormed) (live : α) :
    (h.undo live).1.isSome = true ↔ h.canUndo = true ∧ h.states ≠ [live] := by
  obtain ⟨wf', -⟩ := wf.settle live
  rw [← wf.cursor_settle live]
  simp only [History.undo]
  split_ifs with hstart
  · simp [hstart]
  · rw [List.getElem?_eq_getElem (wf'.pred_lt hstart)]
    simp [hstart]

theorem WellFormed.call (wf : h.WellFormed) (c : Call α) : (h.call c).2.WellFormed := by
  cases c with
  | push s => exact wf.push s
  | undo live => exact wf.undo live
  | redo => exact wf.redo

theorem WellFormed.call?_eq (wf : h.WellFormed) (c : Call α) : h.call? c = some (h.call c) := by
  cases c with
  | push s => exact congrArg (Option.map _) (wf.push?_eq s)
  | undo live => exact wf.undo?_eq live
  | redo => exact redo?_eq h

theorem call_limit (h : History α) (c : Call α) : (h.call c).2.limit = h.limit := by
  cases c with
  | push s => rfl
  | undo live => exact undo_limit h live
  | redo => exact redo_limit h

/-! ### One call after the other -/

theorem wellFormed_after (limit : Nat) (cs : List (Call α)) :
    (after limit cs).WellFormed ∧ (after limit cs).limit = max limit 2 := by
  induction cs using List.reverseRecOn with
  | nil => exact ⟨wellFormed_keeping limit, rfl⟩
  | append_singleton cs c ih =>
    have hconcat : after limit (cs ++ [c]) = ((after limit cs).call c).2 := by
      simp only [after, List.foldl_append, List.foldl_cons, List.foldl_nil]
    rw [hconcat, call_limit]
    exact ⟨ih.1.call c, ih.2⟩

/-- Whatever has been asked of a history, it is well formed within its limit, no further call reaches
out of range, a step forward yields a state exactly if one is announced, and a step back exactly if
one is announced and it is not the live state itself. -/
theorem calls_keep_wellFormed (limit : Nat) (cs : List (Call α)) :
    let h := after limit cs
    h.WellFormed ∧ h.states.length ≤ max limit 2 ∧ (∀ c, h.call? c = some (h.call c)) ∧
      h.redo.1.isSome = h.canRedo ∧
      ∀ live, (h.undo live).1.isSome = true ↔ h.canUndo = true ∧ h.states ≠ [live] := by
  intro h
  obtain ⟨wf, hlimit⟩ := wellFormed_after limit cs
  refine ⟨wf, ?_, wf.call?_eq, isSome_redo h, wf.isSome_undo_iff⟩
  rw [← hlimit]
  exact wf.room

/-- A state that was pushed and is still live is announced and not yielded. -/
example : (after 0 [.push 'a']).canUndo = true ∧ ((after 0 [.push 'a']).undo 'a').1 = none := by
  decide

end Live

end History

end Spreadsheet
