import Mathlib.Data.List.Chain
import Spreadsheet.History

/-!
# Spreadsheet.Proofs.History.Timeline — a history is a bounded timeline

A timeline is a past, a present and a future.  `History` keeps the same thing in another form: a
list with a cursor, in which the present is missing while it is newer than the entry at the cursor.
`Keeps h t` says which timeline `h` stands for, and each operation of a history is the operation of
the timeline.  Neighbours are distinct throughout, so that every step back or forward is a change.
-/

namespace Spreadsheet

/-- What was, what is, and what was taken back. -/
structure Timeline (α : Type) where
  /-- The states before, the most recent one first. -/
  past : List α
  present : α
  /-- The states taken back, the next one first. -/
  future : List α

namespace Timeline

variable {α : Type}

/-- A timeline on which nothing has happened. -/
def starting (s : α) : Timeline α := ⟨[], s, []⟩

/-- The present becomes `s`.  At most `limit` states are kept, this one included; a present that is
`s` already stays, with its future. -/
def record [DecidableEq α] (limit : Nat) (t : Timeline α) (s : α) : Timeline α :=
  if s = t.present then t else ⟨(t.present :: t.past).take (limit - 1), s, []⟩

/-- Steps back, if there is a past. -/
def undo (t : Timeline α) : Timeline α :=
  match t.past with
  | [] => t
  | s :: past => ⟨past, s, t.present :: t.future⟩

/-- Steps forward, if there is a future. -/
def redo (t : Timeline α) : Timeline α :=
  match t.future with
  | [] => t
  | s :: future => ⟨t.present :: t.past, s, future⟩

theorem undo_present (t : Timeline α) : t.undo.present = t.past.head?.getD t.present := by
  unfold undo
  split <;> rename_i h <;> simp [h]

theorem redo_present (t : Timeline α) : t.redo.present = t.future.head?.getD t.present := by
  unfold redo
  split <;> rename_i h <;> simp [h]

theorem undo_present_eq_iff {t : Timeline α} (h : t.past.head? ≠ some t.present) :
    t.undo.present = t.present ↔ t.past = [] := by
  rw [undo_present]
  cases hp : t.past <;> simp_all

theorem redo_present_eq_iff {t : Timeline α} (h : t.future.head? ≠ some t.present) :
    t.redo.present = t.present ↔ t.future = [] := by
  rw [redo_present]
  cases hf : t.future <;> simp_all

end Timeline

namespace History

variable {α : Type}

/-- The timeline that a history stands for: none that has happened yet, one whose states are all in
the list, or one whose present is newer than the list. -/
inductive Keeps : History α → Timeline α → Prop
  | blank (s : α) {limit : Nat} (hl : 2 ≤ limit) : Keeps ⟨[], 0, false, limit⟩ ⟨[], s, []⟩
  | settled {past future : List α} {s : α} {limit : Nat} (hl : 2 ≤ limit)
      (room : (past.reverse ++ s :: future).length ≤ limit)
      (distinct : (past.reverse ++ s :: future).IsChain (· ≠ ·)) :
      Keeps ⟨past.reverse ++ s :: future, past.length, false, limit⟩ ⟨past, s, future⟩
  | newer {states : List α} {s : α} {limit : Nat} (hl : 2 ≤ limit) (filled : states ≠ [])
      (room : states.length ≤ limit) (distinct : (states ++ [s]).IsChain (· ≠ ·)) :
      Keeps ⟨states, states.length - 1, true, limit⟩ ⟨states.reverse.take (limit - 1), s, []⟩

theorem keeps_keeping (limit : Nat) (s : α) : Keeps (keeping limit) (Timeline.starting s) :=
  .blank s (by omega)

variable {h : History α} {t : Timeline α}

/-! ### Recording -/

theorem getLast?_ne_of_distinct {states : List α} {s : α}
    (distinct : (states ++ [s]).IsChain (· ≠ ·)) : states.getLast? ≠ some s := by
  intro hs
  have h := (List.isChain_append.1 distinct).2.2
  exact h s hs s rfl rfl

theorem appended_of_last [DecidableEq α] {states : List α} {s : α} (hs : states.getLast? = some s) :
    appended states s = states := by
  rw [appended, if_pos hs]

theorem appended_of_distinct [DecidableEq α] {states : List α} {s : α}
    (distinct : (states ++ [s]).IsChain (· ≠ ·)) : appended states s = states ++ [s] := by
  rw [appended, if_neg (getLast?_ne_of_distinct distinct)]

theorem trim_of_room (h : History α) (room : h.states.length ≤ h.limit) : h.trim = h := by
  have hz : h.states.length - h.limit = 0 := by omega
  simp [trim, hz]

/-- A pushed history is newer again: of the states before the change as many are kept as there is
room for. -/
theorem keeps_trim_newer {states : List α} {s : α} {limit : Nat} (hl : 2 ≤ limit)
    (filled : states ≠ []) (room : states.length ≤ limit + 1)
    (distinct : (states ++ [s]).IsChain (· ≠ ·)) :
    Keeps (trim ⟨states, states.length - 1, true, limit⟩)
      ⟨states.reverse.take (limit - 1), s, []⟩ := by
  rcases Nat.lt_or_ge limit states.length with htoo | hroom
  · -- the list is one too long, and its oldest state goes
    have hone : states.length - limit = 1 := by omega
    obtain ⟨oldest, states, rfl⟩ := List.exists_cons_of_ne_nil filled
    have hlen : states.length = limit := by simp only [List.length_cons] at hone room; omega
    have hne : states ≠ [] := by
      rintro rfl
      simp at hlen
      omega
    have htail : (states ++ [s]).IsChain (· ≠ ·) := distinct.tail
    have hpast : (oldest :: states).reverse.take (limit - 1) = states.reverse.take (limit - 1) := by
      rw [List.reverse_cons, List.take_append_of_le_length (by simp; omega)]
    rw [hpast]
    have key := Keeps.newer hl hne hlen.le htail
    simpa [trim, hlen] using key
  · rw [trim_of_room _ hroom]
    exact .newer hl filled hroom distinct

/-- Pushing the state before a change records the change. -/
theorem Keeps.push [DecidableEq α] (k : Keeps h t) {s : α} (hs : s ≠ t.present) :
    Keeps (h.push t.present) (t.record h.limit s) := by
  cases k with
  | blank p hl =>
    have key := Keeps.newer hl (List.cons_ne_nil p []) (by simp; omega)
      (show ([p] ++ [s]).IsChain (· ≠ ·) by simpa using hs.symm)
    simp only [Timeline.record, if_neg hs]
    simpa [History.push, appended, trim, Nat.sub_eq_zero_of_le (Nat.le_of_succ_le hl)] using key
  | @settled past future p limit hl room distinct =>
    -- what could be redone is dropped, and the present is at the end already
    have hcut : (past.reverse ++ p :: future).take (past.length + 1) = past.reverse ++ [p] := by
      rw [show past.length + 1 = (past.reverse).length + 1 by simp, List.take_length_add_append]
      simp
    have hlast : (past.reverse ++ [p]).getLast? = some p := by simp
    have hdist : ((past.reverse ++ [p]) ++ [s]).IsChain (· ≠ ·) := by
      have h1 := (List.isChain_split.1 distinct).1
      rw [List.append_assoc, List.singleton_append, List.isChain_append_cons_cons]
      exact ⟨h1, hs.symm, by simp⟩
    have key := keeps_trim_newer hl (show past.reverse ++ [p] ≠ [] by simp)
      (by simp at room ⊢; omega) hdist
    simp only [Timeline.record, if_neg hs, History.push, hcut, appended_of_last hlast]
    simpa using key
  | @newer states p limit hl filled room distinct =>
    have hcut : states.take (states.length - 1 + 1) = states := List.take_of_length_le (by omega)
    have hdist : ((states ++ [p]) ++ [s]).IsChain (· ≠ ·) := by
      rw [List.append_assoc, List.singleton_append, List.isChain_append_cons_cons]
      exact ⟨distinct, hs.symm, by simp⟩
    have key := keeps_trim_newer hl (show states ++ [p] ≠ [] by simp) (by simpa using room) hdist
    have hpast : (p :: states.reverse.take (limit - 1)).take (limit - 1)
        = (states ++ [p]).reverse.take (limit - 1) := by
      obtain ⟨n, hn⟩ : ∃ n, limit - 1 = n + 1 := ⟨limit - 2, by omega⟩
      rw [List.reverse_append, hn]
      simp [List.take_take]
    simp only [Timeline.record, if_neg hs, History.push, hcut, appended_of_distinct distinct, hpast]
    exact key

/-! ### Stepping back and forward -/

/-- Once the present is in the list, the history stands for the same timeline. -/
theorem Keeps.settle [DecidableEq α] (k : Keeps h t) :
    Keeps (h.settle t.present) t ∧ (h.settle t.present).liveIsNewer = false := by
  cases k with
  | blank p hl => exact ⟨.blank p hl, rfl⟩
  | settled hl room distinct => exact ⟨.settled hl room distinct, rfl⟩
  | @newer states p limit hl filled room distinct =>
    have hlast := getLast?_ne_of_distinct distinct
    rcases Nat.lt_or_ge states.length limit with hroom | hfull
    · -- there is room for the present
      have hpast : states.reverse.take (limit - 1) = states.reverse :=
        List.take_of_length_le (by simp; omega)
      have hroom : (states ++ [p]).length ≤ limit := by simp; omega
      have key : Keeps ⟨states.reverse.reverse ++ p :: [], states.reverse.length, false, limit⟩
          ⟨states.reverse, p, []⟩ :=
        .settled hl (by simpa using hroom) (by simpa using distinct)
      have hsettle : History.settle ⟨states, states.length - 1, true, limit⟩ p
          = ⟨states ++ [p], states.length, false, limit⟩ := by
        simp only [History.settle, if_true, if_neg hlast]
        exact trim_of_room _ hroom
      simp only [hsettle, hpast, and_true]
      simpa using key
    · -- the list is full, and its oldest state makes room
      have hlen : states.length = limit := by omega
      obtain ⟨oldest, states, rfl⟩ := List.exists_cons_of_ne_nil filled
      simp only [List.length_cons] at hlen
      have hpast : (oldest :: states).reverse.take (limit - 1) = states.reverse := by
        rw [List.reverse_cons, List.take_append_of_le_length (by simp; omega)]
        exact List.take_of_length_le (by simp; omega)
      have key : Keeps ⟨states.reverse.reverse ++ p :: [], states.reverse.length, false, limit⟩
          ⟨states.reverse, p, []⟩ :=
        .settled hl (by simp; omega) (by simpa using distinct.tail)
      have hsettle : History.settle ⟨oldest :: states, states.length + 1 - 1, true, limit⟩ p
          = ⟨states ++ [p], states.length, false, limit⟩ := by
        simp only [History.settle, if_true, if_neg hlast]
        simp [trim, ← hlen]
      simp only [List.length_cons, hsettle, hpast, and_true]
      simpa using key

/-- Stepping back yields the most recent past state. -/
theorem Keeps.undo [DecidableEq α] (k : Keeps h t) :
    (h.undo t.present).1 = t.past.head? ∧ Keeps (h.undo t.present).2 t.undo := by
  obtain ⟨hk, hold⟩ := k.settle
  unfold History.undo
  generalize h.settle t.present = h' at hk hold
  cases hk with
  | blank p hl => exact ⟨rfl, .blank p hl⟩
  | @settled past future p limit hl room distinct =>
    cases past with
    | nil => exact ⟨rfl, .settled hl room distinct⟩
    | cons q past =>
      have hq : (past.reverse ++ q :: p :: future)[past.length]? = some q := by simp
      have hlist : (q :: past).reverse ++ p :: future = past.reverse ++ q :: p :: future := by simp
      rw [hlist] at room distinct
      simp only [List.length_cons, hlist, Timeline.undo, Nat.add_one_ne_zero, if_false,
        Nat.add_sub_cancel, hq, List.head?_cons, true_and]
      exact .settled hl room distinct
  | newer => cases hold

/-- Stepping forward yields the next future state. -/
theorem Keeps.redo (k : Keeps h t) :
    h.redo.1 = t.future.head? ∧ Keeps h.redo.2 t.redo := by
  cases k with
  | blank p hl => exact ⟨rfl, .blank p hl⟩
  | @settled past future p limit hl room distinct =>
    cases future with
    | nil =>
      have hend : ¬ past.length + 1 < (past.reverse ++ [p]).length := by simp
      simp only [History.redo, canRedo, hend, Timeline.redo]
      exact ⟨rfl, .settled hl room distinct⟩
    | cons q future =>
      have hmore : past.length + 1 < (past.reverse ++ p :: q :: future).length := by simp
      have hq : (past.reverse ++ p :: q :: future)[past.length + 1]? = some q := by
        rw [List.getElem?_append_right (by simp)]
        simp
      have hlist : past.reverse ++ p :: q :: future = (p :: past).reverse ++ q :: future := by simp
      simp only [History.redo, canRedo, hmore, hq, Timeline.redo]
      rw [hlist] at room distinct ⊢
      exact ⟨rfl, .settled hl room distinct⟩
  | newer hl filled room distinct => exact ⟨rfl, .newer hl filled room distinct⟩

theorem Keeps.canUndo_iff (k : Keeps h t) : h.canUndo = true ↔ t.past ≠ [] := by
  cases k with
  | blank p hl => simp [canUndo]
  | settled hl room distinct => simp [canUndo, List.length_pos_iff]
  | newer hl filled room distinct =>
    simp [canUndo, List.take_eq_nil_iff, filled, Nat.sub_ne_zero_of_lt hl]

theorem Keeps.canRedo_iff (k : Keeps h t) : h.canRedo = true ↔ t.future ≠ [] := by
  cases k with
  | blank p hl => simp [canRedo]
  | settled hl room distinct => simp [canRedo, List.length_pos_iff]
  | newer hl filled room distinct => simp [canRedo]

/-- The neighbours of the present differ from it. -/
theorem Keeps.present_ne (k : Keeps h t) :
    t.past.head? ≠ some t.present ∧ t.future.head? ≠ some t.present := by
  cases k with
  | blank p hl => simp
  | @settled past future p limit hl room distinct =>
    obtain ⟨hpast, hfuture⟩ := List.isChain_split.1 distinct
    constructor
    · have := getLast?_ne_of_distinct hpast
      simpa [List.getLast?_reverse] using this
    · intro hp
      exact (List.isChain_cons.1 hfuture).1 p hp rfl
  | @newer states p limit hl filled room distinct =>
    have := getLast?_ne_of_distinct distinct
    constructor
    · rw [List.head?_take, if_neg (by omega), List.head?_reverse]
      exact this
    · simp

/-! ### No state is made up -/

section States

variable [DecidableEq α] {g s : α}

omit [DecidableEq α] in
theorem mem_of_mem_trim (hg : g ∈ h.trim.states) : g ∈ h.states := List.mem_of_mem_drop hg

theorem mem_push (hg : g ∈ (h.push s).states) : g = s ∨ g ∈ h.states := by
  have hg' := mem_of_mem_trim hg
  simp only [appended] at hg'
  split_ifs at hg'
  · exact .inr (List.mem_of_mem_take hg')
  · rcases List.mem_append.1 hg' with hg' | hg'
    · exact .inr (List.mem_of_mem_take hg')
    · exact .inl (List.mem_singleton.1 hg')

theorem mem_settle (hg : g ∈ (h.settle s).states) : g = s ∨ g ∈ h.states := by
  unfold History.settle at hg
  split_ifs at hg
  · exact .inr hg
  · rcases List.mem_append.1 (mem_of_mem_trim hg) with hg | hg
    · exact .inr hg
    · exact .inl (List.mem_singleton.1 hg)
  · exact .inr hg

theorem mem_undo (hg : g ∈ (h.undo s).2.states ∨ (h.undo s).1 = some g) : g = s ∨ g ∈ h.states := by
  simp only [History.undo] at hg
  split_ifs at hg
  · exact mem_settle (hg.resolve_right (by simp))
  · exact mem_settle (hg.elim id List.mem_of_getElem?)

omit [DecidableEq α] in
theorem mem_redo (hg : g ∈ h.redo.2.states ∨ h.redo.1 = some g) : g ∈ h.states := by
  unfold History.redo at hg
  split_ifs at hg
  · exact hg.elim id List.mem_of_getElem?
  · exact hg.resolve_right (by simp)

end States

/-! ### The limit never changes -/

section Limit

variable [DecidableEq α]

theorem settle_limit (h : History α) (s : α) : (h.settle s).limit = h.limit := by
  unfold settle
  split_ifs <;> rfl

@[simp] theorem undo_limit (h : History α) (s : α) : (h.undo s).2.limit = h.limit := by
  have hs := settle_limit h s
  simp only [undo]
  split_ifs <;> exact hs

omit [DecidableEq α] in
@[simp] theorem redo_limit (h : History α) : h.redo.2.limit = h.limit := by
  unfold redo
  split_ifs <;> rfl

end Limit

end History

end Spreadsheet
