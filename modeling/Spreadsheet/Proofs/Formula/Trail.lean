import Mathlib.Data.List.Sort
import Spreadsheet.Proofs.Address.Rectangle
import Spreadsheet.Proofs.Formula.Language

/-!
# Spreadsheet.Proofs.Formula.Trail — evaluation leaves the trail as it found it

A computation `Reads` a result on a trail if it returns it and ends on the same trail.  Everything
that a formula does is composed of such computations, so that on a given trail the values of other
cells are one function, and a formula's result is computed from that function alone.
-/

namespace Spreadsheet

namespace Formula

/-! ### Computations that keep the trail -/

/-- On this trail the computation returns `a` and keeps the trail. -/
def Reads {α : Type} (t : Trail) (act : Evaluation α) (a : α) : Prop := act.run t = (a, t)

section Reads

variable {α β : Type} {t : Trail}

theorem reads_pure (a : α) : Reads t (pure a) a := rfl

theorem Reads.unique {act : Evaluation α} {a b : α} (h : Reads t act a) (h' : Reads t act b) :
    a = b :=
  congrArg Prod.fst (h.symm.trans h')

theorem Reads.bind {act : Evaluation α} {k : α → Evaluation β} {a : α} {b : β}
    (h : Reads t act a) (h' : Reads t (k a) b) : Reads t (act >>= k) b := by
  rw [Reads, StateT.run_bind, h]
  exact h'

theorem Reads.map {act : Evaluation α} {a : α} (f : α → β) (h : Reads t act a) :
    Reads t (f <$> act) (f a) := by
  rw [Reads, StateT.run_map, h]
  rfl

/-- A computation that may fail goes on only when it has not. -/
theorem Reads.except_bind {act : ExceptT ErrorValue Evaluation α} {k : α → ExceptT ErrorValue Evaluation β}
    {r : Except ErrorValue α} {f : α → Except ErrorValue β} (h : Reads t act.run r)
    (h' : ∀ a, Reads t (k a).run (f a)) : Reads t (act >>= k).run (r >>= f) := by
  rw [ExceptT.run_bind]
  refine h.bind ?_
  cases r with
  | ok a => exact h' a
  | error e => exact reads_pure _

theorem reads_lift {act : Evaluation α} {a : α} (h : Reads t act a) :
    Reads t (ExceptT.lift act : ExceptT ErrorValue Evaluation α).run (.ok a) :=
  h.map Except.ok

theorem Reads.onTrail {act : Evaluation α} {a : α} {p : Position} (h : Reads (t ++ [p]) act a) :
    Reads t (onTrail p act) a := by
  have hrun : (Formula.onTrail p act).run t =
      ((act.run (t ++ [p])).1, (act.run (t ++ [p])).2.dropLast) := rfl
  rw [Reads, hrun, h, List.dropLast_concat]

end Reads

/-! ### The passes of a formula, for given values of the cells -/

end Formula

/-- The text of pieces with every part replaced. -/
def Piece.replace {α : Type} (f : α → Except ErrorValue (List Char)) :
    List (Piece α) → Except ErrorValue (List Char)
  | [] => pure []
  | plain c :: ps => do
    let rest ← Piece.replace f ps
    return c :: rest
  | part a :: ps => do
    let here ← f a
    let rest ← Piece.replace f ps
    return here ++ rest

namespace Formula

/-- How a settled operand is written. -/
def Settled.chars : Settled → List Char
  | numeral n => n.text
  | number x => spliced x
  | text s => s.toList

section Given

variable (dims : Dimensions) (valueOf : Position → Value)

/-- What a call is replaced by. -/
def callChars (call : RangeCall) : Except ErrorValue (List Char) :=
  spliced <$> aggregateBetween dims valueOf call.function (Position.ofIdText? call.first.text)
    (Position.ofIdText? call.last.text)

/-- What a reference is replaced by. -/
def referenceChars (r : Reference) : Except ErrorValue (List Char) :=
  Settled.chars <$> settledAt dims valueOf (Position.ofIdText? r.text)

/-- The first pass. -/
def replaceCalls (cs : List Char) : Except ErrorValue (List Char) :=
  Piece.replace (callChars dims valueOf) (RangeCall.split cs)

/-- The second pass. -/
def replaceReferences (cs : List Char) : Except ErrorValue (List Char) :=
  Piece.replace (referenceChars dims valueOf) (Reference.split cs)

/-- The value of a formula's text behind the `=`. -/
def bodyResult (body : List Char) : Except ErrorValue Float := do
  let aggregated ← replaceCalls dims valueOf (Text.upperCase body)
  let residual ← replaceReferences dims valueOf aggregated
  residualValue residual

end Given

/-! ### The cells of a rectangle -/

end Formula

theorem Grid.get?_isSome_iff {g : Grid} {p : Position} :
    (g.get? p).isSome = true ↔ p ∈ g.entries.map Prod.fst := by
  rw [get?, List.lookup_isSome_iff, List.mem_map]
  constructor
  · rintro ⟨e, he, hp⟩
    exact ⟨e, he, (beq_iff_eq.1 hp).symm⟩
  · rintro ⟨e, he, rfl⟩
    exact ⟨e, he, beq_self_eq_true _⟩

/-- The filled cells of a rectangle, found in the grid or in the rectangle. -/
theorem Grid.positionsIn_eq_filter (g : Grid) (b : Rect) :
    g.positionsIn b = b.positions.filter fun p => (g.get? p).isSome := by
  have hanti : Std.Antisymm (fun p q : Position => p < q) :=
    ⟨fun p q h h' => absurd (Position.lt_trans h h') (Position.not_lt_self p)⟩
  have hirrefl : Std.Irrefl (fun p q : Position => p < q) := ⟨Position.not_lt_self⟩
  refine List.Pairwise.eq_of_mem_iff (r := fun p q => p < q) ?_ ?_ fun p => ?_
  · rw [positionsIn]
    exact (List.pairwise_map.2 g.ordered).filter _
  · exact b.positions_ordered.filter _
  · rw [positionsIn, List.mem_filter, List.mem_filter, Rect.mem_positions, get?_isSome_iff, and_comm]

namespace Formula

theorem filterMap_positionsIn {grid : Grid} {valueOf : Position → Value}
    (hblank : ∀ q, grid.get? q = none → valueOf q = .empty) (b : Rect) :
    (grid.positionsIn b).filterMap (fun q => (valueOf q).number?) =
      b.positions.filterMap fun q => (valueOf q).number? := by
  rw [Grid.positionsIn_eq_filter, List.filterMap_filter]
  refine List.filterMap_congr fun q _ => ?_
  cases hq : grid.get? q with
  | none => rw [hblank q hq]; rfl
  | some raw => rfl

/-! ### A formula, for the values that the trail gives -/

section Body

variable {grid : Grid} {dims : Dimensions} {t : Trail} {act : Position → Evaluation Value}
  {valueOf : Position → Value}

theorem reads_numbers (h : ∀ q, Reads t (act q) (valueOf q)) (ps : List Position) :
    Reads t (numbers act ps) (ps.filterMap fun q => (valueOf q).number?) := by
  induction ps with
  | nil => exact reads_pure []
  | cons q ps ih =>
    have hlist : ((q :: ps).filterMap fun q => (valueOf q).number?) =
        (valueOf q).number?.toList ++ ps.filterMap fun q => (valueOf q).number? := by
      cases hq : (valueOf q).number? <;> simp [hq]
    rw [hlist]
    exact (h q).bind (ih.bind (reads_pure _))

theorem reads_aggregateText (h : ∀ q, Reads t (act q) (valueOf q))
    (hblank : ∀ q, grid.get? q = none → valueOf q = .empty) (call : RangeCall) :
    Reads t (aggregateText dims grid.positionsIn act call).run (callChars dims valueOf call) := by
  rw [aggregateText, callChars]
  cases Position.ofIdText? call.first.text with
  | none => exact reads_pure _
  | some first =>
    cases Position.ofIdText? call.last.text with
    | none => exact reads_pure _
    | some last =>
      by_cases hin : (dims.contains first && dims.contains last) = true
      · have hx := reads_numbers h (grid.positionsIn (Range.mk first last).rect)
        rw [filterMap_positionsIn hblank] at hx
        simp only [aggregateBetween, hin, if_true]
        exact (reads_lift hx).except_bind (f := fun xs => .ok (spliced (call.function.apply xs)))
          fun xs => reads_pure _
      · simp only [aggregateBetween, hin, if_false, Bool.false_eq_true]
        exact reads_pure _

theorem spliced_zero : spliced 0 = ['0'] := by decide +kernel

theorem valueText_eq (v : Value) : valueText v = Settled.chars <$> Settled.ofValue v := by
  cases v with
  | empty =>
    rw [valueText, ← spliced_zero]
    rfl
  | number x => rfl
  | text s => rfl
  | error e => rfl

theorem reads_referenceText (h : ∀ q, Reads t (act q) (valueOf q)) (r : Reference) :
    Reads t (referenceText dims act r).run (referenceChars dims valueOf r) := by
  rw [referenceText, referenceChars]
  cases Position.ofIdText? r.text with
  | none => exact reads_pure _
  | some p =>
    by_cases hin : dims.contains p = true
    · simp only [settledAt, hin, if_true, ← valueText_eq]
      exact (reads_lift (h p)).except_bind (f := valueText) fun v => reads_pure _
    · simp only [settledAt, hin, if_false, Bool.false_eq_true]
      exact reads_pure _

theorem reads_expand {α : Type} {replace : α → ExceptT ErrorValue Evaluation (List Char)}
    {f : α → Except ErrorValue (List Char)} (h : ∀ a, Reads t (replace a).run (f a))
    (ps : List (Piece α)) : Reads t (Piece.expand replace ps).run (Piece.replace f ps) := by
  induction ps with
  | nil => exact reads_pure _
  | cons piece ps ih =>
    cases piece with
    | plain c => exact ih.except_bind fun rest => reads_pure _
    | part a => exact (h a).except_bind fun here => ih.except_bind fun rest => reads_pure _

theorem reads_bodyValue (h : ∀ q, Reads t (act q) (valueOf q))
    (hblank : ∀ q, grid.get? q = none → valueOf q = .empty) (body : List Char) :
    Reads t (bodyValue dims grid.positionsIn act body).run (bodyResult dims valueOf body) := by
  rw [bodyValue, bodyResult]
  refine (reads_expand (reads_aggregateText h hblank) _).except_bind fun aggregated => ?_
  exact (reads_expand (reads_referenceText h) _).except_bind fun residual => reads_pure _

end Body

/-! ### Evaluation -/

section Evaluate

variable (grid : Grid) (dims : Dimensions)

theorem run_valueWith {formula : List Char → Evaluation Value} {p : Position} {raw : String}
    {body : List Char} (hraw : grid.get? p = some raw) (hbody : raw.toList = '=' :: body) (t : Trail) :
    (valueWith grid formula p).run t =
      (if p ∈ t then pure (.error .reference) else formula body : Evaluation Value).run t := by
  simp only [valueWith, hraw, hbody]
  rfl

theorem valueWith_of_blank {formula : List Char → Evaluation Value} {p : Position}
    (hraw : grid.get? p = none) (t : Trail) : Reads t (valueWith grid formula p) .empty := by
  rw [valueWith, hraw]
  exact reads_pure _

/-- The value of a cell is that of its formula, unless it is blank, a literal or on the trail. -/
theorem exists_reads_valueWith {formula : List Char → Evaluation Value} {t : Trail}
    (h : ∀ body, ∃ v, Reads t (formula body) v) (p : Position) :
    ∃ v, Reads t (valueWith grid formula p) v := by
  cases hraw : grid.get? p with
  | none => exact ⟨_, valueWith_of_blank grid hraw t⟩
  | some raw =>
    by_cases hbody : ∃ body, raw.toList = '=' :: body
    · obtain ⟨body, hbody⟩ := hbody
      by_cases hp : p ∈ t
      · refine ⟨.error .reference, ?_⟩
        rw [Reads, run_valueWith grid hraw hbody, if_pos hp]
        rfl
      · obtain ⟨v, hv⟩ := h body
        refine ⟨v, ?_⟩
        rw [Reads, run_valueWith grid hraw hbody, if_neg hp]
        exact hv
    · refine ⟨literal raw, ?_⟩
      rw [valueWith, hraw]
      simp only
      split
      · rename_i body hraw'
        exact absurd ⟨body, hraw'⟩ hbody
      · exact reads_pure _

theorem valueWithin_of_blank {p : Position} (hraw : grid.get? p = none) (room : Nat) (t : Trail) :
    Reads t (valueWithin grid dims room p) .empty := by
  cases room with
  | zero => exact valueWith_of_blank grid hraw t
  | succ room => exact valueWith_of_blank grid hraw t

theorem exists_reads_valueWithin (room : Nat) (t : Trail) (p : Position) :
    ∃ v, Reads t (valueWithin grid dims room p) v := by
  induction room generalizing t p with
  | zero => exact exists_reads_valueWith grid (fun body => ⟨_, reads_pure _⟩) p
  | succ room ih =>
    refine exists_reads_valueWith grid (fun body => ?_) p
    choose valueOf hvalue using ih (t ++ [p])
    have hblank : ∀ q, grid.get? q = none → valueOf q = .empty := fun q hq =>
      (hvalue q).unique (valueWithin_of_blank grid dims hq room _)
    exact ⟨_, ((reads_bodyValue hvalue hblank body).map resultValue).onTrail⟩

/-- The value of a cell on a trail. -/
def valueOn (t : Trail) (p : Position) : Value := ((evaluate grid dims p).run t).1

theorem evaluate_run (t : Trail) (p : Position) :
    (evaluate grid dims p).run t = (valueWithin grid dims (trailLimit - t.length) p).run t := rfl

/-- Evaluation leaves the trail as it was. -/
theorem reads_evaluate (t : Trail) (p : Position) :
    Reads t (evaluate grid dims p) (valueOn grid dims t p) := by
  obtain ⟨v, hv⟩ := exists_reads_valueWithin grid dims (trailLimit - t.length) t p
  rw [Reads, valueOn, evaluate_run, hv]

/-- A formula cell that is not on the trail yet has the result of its formula, in which other cells
have their values on the longer trail. -/
theorem valueOn_of_formula {t : Trail} {p : Position} {raw : String} {body : List Char}
    (hroom : t.length < trailLimit) (hp : p ∉ t) (hraw : grid.get? p = some raw)
    (hbody : raw.toList = '=' :: body) :
    valueOn grid dims t p = resultValue (bodyResult dims (valueOn grid dims (t ++ [p])) body) := by
  obtain ⟨room, hlimit⟩ : ∃ room, trailLimit - t.length = room + 1 :=
    ⟨trailLimit - t.length - 1, by omega⟩
  -- one place on the longer trail is one less of the room
  have hlonger : trailLimit - (t ++ [p]).length = room := by
    rw [List.length_append, List.length_singleton]
    omega
  have hvalue : ∀ q, Reads (t ++ [p]) (valueWithin grid dims room q)
      (valueOn grid dims (t ++ [p]) q) := by
    intro q
    have h := reads_evaluate grid dims (t ++ [p]) q
    rwa [Reads, evaluate_run, hlonger] at h
  have hblank : ∀ q, grid.get? q = none → valueOn grid dims (t ++ [p]) q = .empty := fun q hq =>
    (hvalue q).unique (valueWithin_of_blank grid dims hq room _)
  have hrun : Reads t (valueWithin grid dims (room + 1) p)
      (resultValue (bodyResult dims (valueOn grid dims (t ++ [p])) body)) := by
    rw [Reads, valueWithin, run_valueWith grid hraw hbody, if_neg hp]
    exact ((reads_bodyValue hvalue hblank body).map resultValue).onTrail
  rw [valueOn, evaluate_run, hlimit, hrun]

end Evaluate

end Formula

end Spreadsheet
