import Mathlib.Data.List.Induction
import Spreadsheet.Workspace.State

/-!
# Spreadsheet.Proofs.SaveTimer.Firing — when the timer fires

Whether a timer has something to fire is read off the record of its calls and their answers: the
quiet period that was started last is still awaited if it was neither dropped nor fired since.
`deadline_after` says that the deadline is the end of that period, whatever calls were made at
whatever times, and everything that the timer answers follows from it.
-/

namespace Spreadsheet

namespace SaveTimer

/-! ### Calls and their answers -/

/-- What is asked of a timer.  The times need not be in order. -/
inductive Call where
  | restart (now : Nat)
  | fire (now : Nat)
  | cancel
deriving DecidableEq, Repr

/-- What a call answers, if it answers anything, and the timer after it. -/
def call (t : SaveTimer) : Call → Option Bool × SaveTimer
  | .restart now => (none, t.restart now)
  | .fire now => (some (t.fire now).1, (t.fire now).2)
  | .cancel => (some t.cancel.1, t.cancel.2)

/-- The timer after some calls. -/
def after (t : SaveTimer) (cs : List Call) : SaveTimer := cs.foldl (fun t c => (t.call c).2) t

/-- A call and what it was answered. -/
structure Event where
  call : Call
  answer : Option Bool
deriving DecidableEq, Repr

/-- Calls with their answers, in their order. -/
def record (t : SaveTimer) : List Call → List Event
  | [] => []
  | c :: cs => ⟨c, (t.call c).1⟩ :: record (t.call c).2 cs

/-- Whether the period that was awaited before is not awaited any more: a new one was started, or it
was dropped, or it was fired. -/
def Event.ends (e : Event) : Bool :=
  match e.call with
  | .restart _ => true
  | .fire _ => e.answer == some true
  | .cancel => true

/-- A quiet period was started at time `start`, and no later call has ended it. -/
def Awaits (events : List Event) (start : Nat) : Prop :=
  ∃ before answer after, events = before ++ ⟨.restart start, answer⟩ :: after ∧
    ∀ e ∈ after, e.ends = false

section Record

variable (t : SaveTimer) (cs : List Call) (c : Call)

theorem after_concat : t.after (cs ++ [c]) = ((t.after cs).call c).2 := by
  unfold after
  rw [List.foldl_append]
  rfl

theorem record_concat : t.record (cs ++ [c]) = t.record cs ++ [⟨c, ((t.after cs).call c).1⟩] := by
  induction cs generalizing t with
  | nil => rfl
  | cons first cs ih =>
    show _ :: record _ (cs ++ [c]) = _
    rw [ih]
    rfl

end Record

/-- With one more call the period is awaited that it starts, or the one before if it does not end
it. -/
theorem awaits_concat {events : List Event} {e : Event} {start : Nat} :
    Awaits (events ++ [e]) start ↔ e.call = .restart start ∨ e.ends = false ∧ Awaits events start := by
  constructor
  · rintro ⟨before, answer, after, heq, hafter⟩
    -- the last call starts the period, or it comes after the one that did
    rcases List.eq_nil_or_concat after with rfl | ⟨after, last, rfl⟩
    · obtain ⟨-, hlast⟩ := List.append_inj' heq rfl
      rw [List.singleton_inj.1 hlast]
      exact .inl rfl
    · rw [List.concat_eq_append] at heq hafter
      rw [← List.cons_append, ← List.append_assoc] at heq
      obtain ⟨hevents, hlast⟩ := List.append_inj' heq rfl
      rw [List.singleton_inj.1 hlast]
      refine .inr ⟨hafter last (by simp), before, answer, after, hevents, ?_⟩
      intro e he
      exact hafter e (List.mem_append_left _ he)
  · rintro (hcall | ⟨hends, before, answer, after, rfl, hafter⟩)
    · obtain ⟨c, answer⟩ := e
      subst hcall
      exact ⟨events, answer, [], rfl, by simp⟩
    · refine ⟨before, answer, after ++ [e], by simp, ?_⟩
      intro e' he'
      rcases List.mem_append.1 he' with he' | he'
      · exact hafter e' he'
      · rw [List.mem_singleton.1 he']
        exact hends

/-! ### One call -/

section OneCall

variable {t : SaveTimer} {now d : Nat}

theorem hasExpired_iff : t.hasExpired now = true ↔ ∃ d, t.deadline = some d ∧ d ≤ now := by
  unfold hasExpired
  cases t.deadline <;> simp

theorem fire_of_expired (h : t.hasExpired now = true) :
    t.fire now = (true, { t with deadline := none }) := by
  rw [fire, if_pos h]

theorem fire_of_not_expired (h : ¬ t.hasExpired now = true) : t.fire now = (false, t) := by
  rw [fire, if_neg h]

theorem fire_fst (t : SaveTimer) (now : Nat) : (t.fire now).1 = t.hasExpired now := by
  by_cases h : t.hasExpired now = true
  · rw [fire_of_expired h, h]
  · rw [fire_of_not_expired h, eq_false_of_ne_true h]

/-- A call leaves a deadline exactly if it sets it, or finds it and does not end the period. -/
theorem deadline_call (c : Call) :
    (t.call c).2.deadline = some d ↔
      (∃ start, c = .restart start ∧ start + t.delay = d) ∨
        Event.ends ⟨c, (t.call c).1⟩ = false ∧ t.deadline = some d := by
  cases c with
  | restart now => simp [call, restart, Event.ends]
  | cancel => simp [call, cancel, Event.ends]
  | fire now =>
    by_cases h : t.hasExpired now = true
    · simp [call, fire_of_expired h, Event.ends]
    · simp [call, fire_of_not_expired h, Event.ends]

theorem delay_call (t : SaveTimer) (c : Call) : (t.call c).2.delay = t.delay := by
  cases c with
  | restart now => rfl
  | cancel => rfl
  | fire now =>
    show (t.fire now).2.delay = t.delay
    by_cases h : t.hasExpired now = true
    · rw [fire_of_expired h]
    · rw [fire_of_not_expired h]

/-- The remaining time is the least after which the timer has expired. -/
theorem expires_after_remaining (h : t.remaining now = some d) :
    t.hasExpired (now + d) = true ∧ ∀ d' < d, t.hasExpired (now + d') = false := by
  obtain ⟨deadline, hdeadline, rfl⟩ := Option.map_eq_some_iff.1 h
  constructor
  · rw [hasExpired_iff]
    exact ⟨deadline, hdeadline, by omega⟩
  · intro d' hd'
    rw [← Bool.not_eq_true, hasExpired_iff]
    rintro ⟨other, hother, hle⟩
    rw [hdeadline, Option.some.injEq] at hother
    omega

end OneCall

/-! ### All calls -/

theorem delay_after (delay : Nat) (cs : List Call) : ((idle delay).after cs).delay = delay := by
  induction cs using List.reverseRecOn with
  | nil => rfl
  | append_singleton cs c ih => rw [after_concat, delay_call, ih]

/-- The deadline is the end of the period that is awaited. -/
theorem deadline_after (delay : Nat) (cs : List Call) (d : Nat) :
    ((idle delay).after cs).deadline = some d ↔
      ∃ start, Awaits ((idle delay).record cs) start ∧ start + delay = d := by
  induction cs using List.reverseRecOn generalizing d with
  | nil =>
    refine iff_of_false (fun h => nomatch h) ?_
    rintro ⟨start, ⟨before, answer, after, heq, -⟩, -⟩
    simp [record] at heq
  | append_singleton cs c ih =>
    rw [after_concat, record_concat, deadline_call, delay_after, ih]
    simp only [awaits_concat]
    constructor
    · rintro (⟨start, rfl, hstart⟩ | ⟨hends, start, hawaits, hstart⟩)
      · exact ⟨start, .inl rfl, hstart⟩
      · exact ⟨start, .inr ⟨hends, hawaits⟩, hstart⟩
    · rintro ⟨start, rfl | ⟨hends, hawaits⟩, hstart⟩
      · exact .inl ⟨start, rfl, hstart⟩
      · exact .inr ⟨hends, start, hawaits, hstart⟩

theorem exists_deadline_iff (delay : Nat) (cs : List Call) :
    (∃ d, ((idle delay).after cs).deadline = some d) ↔
      ∃ start, Awaits ((idle delay).record cs) start := by
  simp only [deadline_after]
  constructor
  · rintro ⟨d, start, hawaits, -⟩
    exact ⟨start, hawaits⟩
  · rintro ⟨start, hawaits⟩
    exact ⟨start + delay, start, hawaits, rfl⟩

end SaveTimer

theorem Workspace.tick_fst {γ : Type} [Archive γ] (w : Workspace γ) (now : Nat) :
    (w.tick now).1 = w.timer.hasExpired now := by
  unfold tick
  by_cases h : w.timer.hasExpired now = true
  · simp only [SaveTimer.fire_of_expired h, if_true, h]
  · simp only [SaveTimer.fire_of_not_expired h, Bool.false_eq_true, if_false, eq_false_of_ne_true h]

namespace SaveTimer

/-- After any calls at any times, the timer fires exactly if a period is awaited that ends no later
than now, and there is something to drop exactly if one is awaited.  Time remains exactly then, and
it is the least after which the timer fires, and a workspace with this timer saves. -/
theorem fires_iff_awaits (delay : Nat) (cs : List Call) :
    let t := (idle delay).after cs
    let events := (idle delay).record cs
    (∀ now, (t.fire now).1 = true ↔ ∃ start, Awaits events start ∧ start + delay ≤ now) ∧
      (t.cancel.1 = true ↔ ∃ start, Awaits events start) ∧
      (∀ now, t.remaining now = none ↔ ¬ ∃ start, Awaits events start) ∧
      ∀ now d, t.remaining now = some d →
        t.hasExpired (now + d) = true ∧ (∀ d' < d, t.hasExpired (now + d') = false) ∧
          ∀ (γ : Type) [Archive γ] (w : Workspace γ), w.timer = t → (w.tick (now + d)).1 = true := by
  intro t events
  refine ⟨?_, ?_, ?_, ?_⟩
  · intro now
    rw [fire_fst, hasExpired_iff]
    simp only [t, deadline_after]
    constructor
    · rintro ⟨d, ⟨start, hawaits, rfl⟩, hle⟩
      exact ⟨start, hawaits, hle⟩
    · rintro ⟨start, hawaits, hle⟩
      exact ⟨start + delay, ⟨start, hawaits, rfl⟩, hle⟩
  · rw [← exists_deadline_iff]
    exact Option.isSome_iff_exists
  · intro now
    rw [← exists_deadline_iff, ← Option.isSome_iff_exists, remaining, Option.map_eq_none_iff,
      Option.not_isSome_iff_eq_none]
  · -- the least time after which the timer has expired is the time that remains
    intro now d hd
    obtain ⟨hexpired, hleast⟩ := expires_after_remaining hd
    refine ⟨hexpired, hleast, ?_⟩
    intro γ _ w hw
    rw [Workspace.tick_fst, hw]
    exact hexpired

-- A call too early leaves the period as it was; once it has fired, nothing is awaited.
example : ((idle 500).record [.restart 0, .fire 499, .restart 400, .fire 600, .fire 900, .cancel]).map
    Event.answer = [none, some false, none, some false, some true, some false] := rfl

end SaveTimer

end Spreadsheet
