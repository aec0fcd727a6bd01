import Mathlib.Data.List.Chain
import Mathlib.Logic.Relation
import Spreadsheet.Proofs.Formula.Dependence
import Spreadsheet.Proofs.Grid.Entries

/-!
# Spreadsheet.Proofs.Formula.Displayed — formulas see what the other cells show

Below a cell that leads to no cycle, to no cell on the trail and to no chain that the trail cannot
take, neither guard ends an evaluation.  Evaluation then has the same value on every trail, so that
each formula is computed from the values that the cells it depends on show by themselves.
-/

namespace Spreadsheet.Formula

open Relation

section Displayed

variable (grid : Grid) (dims : Dimensions)

/-- A formula cell depends on the cells on the sheet that its formula mentions. -/
def DependsOn (p q : Position) : Prop :=
  dims.contains q = true ∧ ∃ body, grid.formula? p = some body ∧ Mentions body q

/-- The number of formula cells among some cells. -/
def formulaCount (cs : List Position) : Nat := cs.countP fun p => (grid.formula? p).isSome

/-- No formula cell that a cell leads to depends on itself or is on the trail, and no chain of
dependencies from the cell has more than so many formula cells. -/
structure Unguarded (room : Nat) (t : Trail) (p : Position) : Prop where
  acyclic : ∀ q, ReflTransGen (DependsOn grid dims) p q → ¬ TransGen (DependsOn grid dims) q q
  offTrail : ∀ q, ReflTransGen (DependsOn grid dims) p q → (grid.formula? q).isSome = true → q ∉ t
  bounded : ∀ cs, (p :: cs).Nodup → (p :: cs).IsChain (DependsOn grid dims) →
    formulaCount grid (p :: cs) ≤ room

variable {grid dims} {room : Nat} {t : Trail} {p q : Position}

theorem reaches_of_isChain {cs : List Position} (h : (p :: cs).IsChain (DependsOn grid dims))
    (hq : q ∈ p :: cs) : ReflTransGen (DependsOn grid dims) p q := by
  induction cs generalizing p with
  | nil =>
    rw [List.mem_singleton.1 hq]
  | cons r cs ih =>
    rw [List.isChain_cons_cons] at h
    rcases List.mem_cons.1 hq with rfl | hq
    · exact .refl
    · exact .head h.1 (ih h.2 hq)

theorem formulaCount_cons_of_formula {body : List Char} (h : grid.formula? p = some body)
    (cs : List Position) : formulaCount grid (p :: cs) = formulaCount grid cs + 1 :=
  List.countP_cons_of_pos (by rw [h]; rfl)

namespace Unguarded

/-- A chain from a cell goes on from every cell that depends on it. -/
theorem chain_cons (h : Unguarded grid dims room t p) (hpq : DependsOn grid dims p q)
    {cs : List Position} (hnodup : (q :: cs).Nodup) (hchain : (q :: cs).IsChain (DependsOn grid dims)) :
    formulaCount grid (p :: q :: cs) ≤ room := by
  refine h.bounded (q :: cs) (List.nodup_cons.2 ⟨fun hp => ?_, hnodup⟩)
    (List.isChain_cons_cons.2 ⟨hpq, hchain⟩)
  exact h.acyclic p .refl (.head' hpq (reaches_of_isChain hchain hp))

theorem dependency (h : Unguarded grid dims room t p) (hpq : DependsOn grid dims p q) :
    Unguarded grid dims room t q where
  acyclic r hr := h.acyclic r (.head hpq hr)
  offTrail r hr := h.offTrail r (.head hpq hr)
  bounded cs hnodup hchain := Nat.le_trans
    (List.Sublist.countP_le (List.sublist_cons_self p (q :: cs))) (h.chain_cons hpq hnodup hchain)

theorem reaches (h : Unguarded grid dims room t p) (hpq : ReflTransGen (DependsOn grid dims) p q) :
    Unguarded grid dims room t q := by
  induction hpq with
  | refl => exact h
  | tail _ hqr ih => exact ih.dependency hqr

/-- A formula that is being evaluated takes a place on the trail and uses up room. -/
theorem dependency_onTrail (h : Unguarded grid dims (room + 1) t p)
    (hpq : DependsOn grid dims p q) : Unguarded grid dims room (t ++ [p]) q where
  acyclic r hr := h.acyclic r (.head hpq hr)
  offTrail r hr hr' := by
    rw [List.mem_append, List.mem_singleton, not_or]
    refine ⟨h.offTrail r (.head hpq hr) hr', ?_⟩
    rintro rfl
    exact h.acyclic r .refl (.head' hpq hr)
  bounded cs hnodup hchain := by
    obtain ⟨body, hbody, -⟩ := hpq.2
    have := h.chain_cons hpq hnodup hchain
    rw [formulaCount_cons_of_formula hbody] at this
    omega

theorem nil (h : Unguarded grid dims room t p) : Unguarded grid dims room [] p where
  acyclic := h.acyclic
  offTrail _ _ _ := List.not_mem_nil
  bounded := h.bounded

theorem room_pos (h : Unguarded grid dims room t p) {body : List Char}
    (hbody : grid.formula? p = some body) : 0 < room := by
  have := h.bounded [] (List.nodup_singleton p) (List.isChain_singleton p)
  rw [formulaCount_cons_of_formula hbody] at this
  omega

/-- What is evaluated at the end of a chain has the chain on the trail, and room is left for it. -/
theorem onChain {cs : List Position} (h : Unguarded grid dims room t p)
    (hchain : (p :: (cs ++ [q])).IsChain (DependsOn grid dims)) :
    ∃ left, Unguarded grid dims left (t ++ p :: cs) q ∧
      (t ++ p :: cs).length + left = t.length + room := by
  -- induction along the chain; each formula cell on it takes one place on the trail
  induction cs generalizing room t p with
  | nil =>
    have hpq : DependsOn grid dims p q := (List.isChain_cons_cons.1 hchain).1
    obtain ⟨body, hbody, -⟩ := hpq.2
    obtain ⟨left, rfl⟩ : ∃ n, room = n + 1 := ⟨room - 1, by have := h.room_pos hbody; omega⟩
    refine ⟨left, h.dependency_onTrail hpq, ?_⟩
    rw [List.length_append, List.length_singleton]
    omega
  | cons r cs ih =>
    obtain ⟨hpr, hrest⟩ := List.isChain_cons_cons.1 hchain
    obtain ⟨body, hbody, -⟩ := hpr.2
    obtain ⟨before, rfl⟩ : ∃ n, room = n + 1 := ⟨room - 1, by have := h.room_pos hbody; omega⟩
    obtain ⟨left, hleft, hlength⟩ := ih (h.dependency_onTrail hpr) hrest
    rw [List.append_assoc, List.singleton_append] at hleft hlength
    have hone : (t ++ [p]).length = t.length + 1 := List.length_append
    exact ⟨left, hleft, by omega⟩

end Unguarded

theorem valueOn_nil (p : Position) : valueOn grid dims [] p = valueAt grid dims p := rfl

/-- Where no guard ends the evaluation, the value is the same on every trail. -/
theorem valueOn_eq_of_unguarded {t' : Trail} (h : Unguarded grid dims room t p)
    (h' : Unguarded grid dims room t' p) (hroom : t.length + room ≤ trailLimit)
    (hroom' : t'.length + room ≤ trailLimit) : valueOn grid dims t p = valueOn grid dims t' p := by
  -- induction on the room that is left on both trails
  induction room generalizing t t' p with
  | zero =>
    rw [valueOn_eq, valueOn_eq]
    cases hbody : grid.formula? p with
    | none => rfl
    | some body => exact absurd (h.room_pos hbody) (Nat.lt_irrefl 0)
  | succ room ih =>
    rw [valueOn_eq, valueOn_eq]
    cases hbody : grid.formula? p with
    | none => rfl
    | some body =>
      have hisSome : (grid.formula? p).isSome = true := by rw [hbody]; rfl
      simp only
      rw [if_neg (h.offTrail p .refl hisSome), if_neg (h'.offTrail p .refl hisSome),
        if_neg (by omega), if_neg (by omega)]
      refine congrArg resultValue (bodyResult_congr (finiteNumbers_valueOn grid dims _)
        (fun _ _ => rfl) ?_)
      intro q hin hq
      have hpq : DependsOn grid dims p q := ⟨hin, body, hbody, hq⟩
      refine ih (h.dependency_onTrail hpq) (h'.dependency_onTrail hpq) ?_ ?_
      · rw [List.length_append, List.length_singleton]
        omega
      · rw [List.length_append, List.length_singleton]
        omega

/-- A formula below which no guard ends an evaluation is computed from what the cells show. -/
theorem valueAt_of_unguarded (h : Unguarded grid dims room t p) (hroom : room ≤ trailLimit)
    {body : List Char} (hbody : grid.formula? p = some body) :
    valueAt grid dims p = resultValue (bodyResult dims (valueAt grid dims) body) := by
  have hpos := h.room_pos hbody
  obtain ⟨room, rfl⟩ : ∃ n, room = n + 1 := ⟨room - 1, by omega⟩
  rw [← valueOn_nil, valueOn_eq, hbody]
  simp only
  rw [if_neg List.not_mem_nil, if_neg (by decide)]
  refine congrArg resultValue (bodyResult_congr (finiteNumbers_valueOn grid dims _)
    (fun _ _ => rfl) ?_)
  intro q hin hq
  have hpq : DependsOn grid dims p q := ⟨hin, body, hbody, hq⟩
  have hq' := h.nil.dependency_onTrail hpq
  have hone : ([] ++ [p]).length + room ≤ trailLimit := by
    rw [List.nil_append, List.length_singleton]
    omega
  have hnone : ([] : Trail).length + room ≤ trailLimit := by
    rw [List.length_nil]
    omega
  exact valueOn_eq_of_unguarded hq' hq'.nil hone hnone

theorem evaluate_of_unguarded (h : Unguarded grid dims room t p)
    (hroom : t.length + room ≤ trailLimit) :
    (evaluate grid dims p).run t = (valueAt grid dims p, t) := by
  rw [reads_evaluate grid dims t p, ← valueOn_nil]
  refine congrArg (·, t) (valueOn_eq_of_unguarded h h.nil hroom ?_)
  rw [List.length_nil]
  omega

/-- A cell that leads to no cycle, to no formula cell on the trail and to no chain of dependencies
that overfills the trail has the value that it shows by itself.  So has every cell that is evaluated
on the way, on the trail that is there then, and every formula that the cell leads to is computed from
the values that the other cells show. -/
theorem evaluate_eq_valueAt
    (hcycle : ∀ q, ReflTransGen (DependsOn grid dims) p q → (grid.formula? q).isSome = true →
      ¬ TransGen (DependsOn grid dims) q q)
    (htrail : ∀ q, ReflTransGen (DependsOn grid dims) p q → (grid.formula? q).isSome = true → q ∉ t)
    (hchain : ∀ cs, (p :: cs).Nodup → (p :: cs).IsChain (DependsOn grid dims) →
      t.length + formulaCount grid (p :: cs) ≤ trailLimit) :
    (evaluate grid dims p).run t = (valueAt grid dims p, t) ∧
      (∀ cs q, (p :: (cs ++ [q])).IsChain (DependsOn grid dims) →
        (evaluate grid dims q).run (t ++ p :: cs) = (valueAt grid dims q, t ++ p :: cs)) ∧
      ∀ q body, ReflTransGen (DependsOn grid dims) p q → grid.formula? q = some body →
        valueAt grid dims q = resultValue (bodyResult dims (valueAt grid dims) body) := by
  have hlength : t.length ≤ trailLimit :=
    Nat.le_trans (Nat.le_add_right _ _)
      (hchain [] (List.nodup_singleton p) (List.isChain_singleton p))
  have h : Unguarded grid dims (trailLimit - t.length) t p := by
    refine ⟨fun q hq hloop => ?_, htrail, fun cs hnodup hcs => ?_⟩
    · obtain ⟨r, ⟨-, body, hbody, -⟩, -⟩ := TransGen.head'_iff.1 hloop
      exact hcycle q hq (by rw [hbody]; rfl) hloop
    · have := hchain cs hnodup hcs
      omega
  -- no guard ends an evaluation below the cell, nor at the end of any chain from it
  refine ⟨evaluate_of_unguarded h (by omega), fun cs q hcs => ?_, fun q body hq hbody => ?_⟩
  · obtain ⟨left, hleft, hroom⟩ := h.onChain hcs
    exact evaluate_of_unguarded hleft (by omega)
  · exact valueAt_of_unguarded (h.reaches hq) (Nat.sub_le _ _) hbody

end Displayed

/-! ### A sheet whose formulas refer to the left -/

section Leftward

variable {grid : Grid} {dims : Dimensions} {p q : Position}

theorem col_lt_of_transGen (h : ∀ p q, DependsOn grid dims p q → q.col < p.col)
    (hpq : TransGen (DependsOn grid dims) p q) : q.col < p.col := by
  induction hpq with
  | single hpq => exact h _ _ hpq
  | tail _ hqr ih => exact Nat.lt_trans (h _ _ hqr) ih

theorem length_le_of_isChain (h : ∀ p q, DependsOn grid dims p q → q.col < p.col)
    {cs : List Position} (hchain : (p :: cs).IsChain (DependsOn grid dims)) :
    (p :: cs).length ≤ p.col + 1 := by
  induction cs generalizing p with
  | nil => exact Nat.succ_le_succ (Nat.zero_le _)
  | cons q cs ih =>
    obtain ⟨hpq, hrest⟩ := List.isChain_cons_cons.1 hchain
    have := ih hrest
    have := h p q hpq
    rw [List.length_cons]
    omega

end Leftward

/-- A number, its double and a formula that reads both, each of them twice. -/
def diamondSheet : Grid :=
  Grid.ofList [(⟨0, 0⟩, "1"), (⟨0, 1⟩, "=A1+A1"), (⟨0, 2⟩, "=SUM(A1:B1)+B1*A1")]

theorem formula?_diamondSheet {p : Position} {body : List Char}
    (h : diamondSheet.formula? p = some body) :
    p = ⟨0, 1⟩ ∧ body = "A1+A1".toList ∨ p = ⟨0, 2⟩ ∧ body = "SUM(A1:B1)+B1*A1".toList := by
  have hentries : diamondSheet.entries =
      [(⟨0, 0⟩, "1"), (⟨0, 1⟩, "=A1+A1"), (⟨0, 2⟩, "=SUM(A1:B1)+B1*A1")] := by decide +kernel
  have hone : "1".toList = ['1'] := by decide
  have hdouble : "=A1+A1".toList = '=' :: "A1+A1".toList := by decide
  have hboth : "=SUM(A1:B1)+B1*A1".toList = '=' :: "SUM(A1:B1)+B1*A1".toList := by decide
  obtain ⟨raw, hraw, hbody⟩ := Grid.formula?_eq_some_iff.1 h
  have hmem := Grid.get?_eq_some_iff.1 hraw
  rw [hentries] at hmem
  simp only [List.mem_cons, Prod.mk.injEq, List.not_mem_nil, or_false] at hmem
  rcases hmem with ⟨-, rfl⟩ | ⟨rfl, rfl⟩ | ⟨rfl, rfl⟩
  · rw [hone] at hbody
    cases hbody
  · rw [hdouble] at hbody
    exact .inl ⟨rfl, (List.cons.inj hbody).2.symm⟩
  · rw [hboth] at hbody
    exact .inr ⟨rfl, (List.cons.inj hbody).2.symm⟩

theorem col_lt_diamondSheet (p q : Position)
    (h : DependsOn diamondSheet Dimensions.standard p q) : q.col < p.col := by
  obtain ⟨-, body, hbody, hq⟩ := h
  rcases formula?_diamondSheet hbody with ⟨rfl, rfl⟩ | ⟨rfl, rfl⟩
  · have hnamed : namedBeside "A1+A1".toList = [⟨0, 0⟩, ⟨0, 0⟩] := by decide +kernel
    have hcalls : callsOf "A1+A1".toList = [] := by decide +kernel
    rcases hq with hq | ⟨call, hcall, -⟩
    · rw [hnamed] at hq
      simp only [List.mem_cons, List.not_mem_nil, or_false, or_self] at hq
      rw [hq]
      decide
    · rw [hcalls] at hcall
      cases hcall
  · have hnamed : namedBeside "SUM(A1:B1)+B1*A1".toList = [⟨0, 1⟩, ⟨0, 0⟩] := by decide +kernel
    have hcalls : callsOf "SUM(A1:B1)+B1*A1".toList =
        [⟨.sum, ⟨['A'], ['1']⟩, ⟨['B'], ['1']⟩⟩] := by decide +kernel
    rcases hq with hq | ⟨call, hcall, first, last, hfirst, hlast, hcover⟩
    · rw [hnamed] at hq
      simp only [List.mem_cons, List.not_mem_nil, or_false] at hq
      rcases hq with rfl | rfl <;> decide
    · rw [hcalls, List.mem_singleton] at hcall
      subst hcall
      have hA1 : Position.ofIdText? (Reference.mk ['A'] ['1']).text = some ⟨0, 0⟩ := by decide
      have hB1 : Position.ofIdText? (Reference.mk ['B'] ['1']).text = some ⟨0, 1⟩ := by decide
      obtain rfl := Option.some.inj (hA1.symm.trans hfirst)
      obtain rfl := Option.some.inj (hB1.symm.trans hlast)
      obtain ⟨-, hright⟩ := Bool.and_eq_true_iff.1 hcover
      exact Nat.lt_succ_of_le (of_decide_eq_true hright)

/-- Its chains have at most three cells, and the cell on the trail is none of them. -/
theorem evaluate_eq_valueAt_diamondSheet :
    (evaluate diamondSheet Dimensions.standard ⟨0, 2⟩).run [⟨1, 0⟩] = (.number 5, [⟨1, 0⟩]) ∧
      valueAt diamondSheet Dimensions.standard ⟨0, 1⟩ =
        resultValue (bodyResult Dimensions.standard (valueAt diamondSheet Dimensions.standard)
          "A1+A1".toList) := by
  have hbody : diamondSheet.formula? ⟨0, 1⟩ = some "A1+A1".toList := by decide +kernel
  have hdepends : DependsOn diamondSheet Dimensions.standard ⟨0, 2⟩ ⟨0, 1⟩ :=
    ⟨by decide, "SUM(A1:B1)+B1*A1".toList, by decide +kernel, .inl (by decide +kernel)⟩
  have hvalue : valueAt diamondSheet Dimensions.standard ⟨0, 2⟩ = .number 5 := by decide +kernel
  have hcycle : ∀ q, ¬ TransGen (DependsOn diamondSheet Dimensions.standard) q q := fun q hloop =>
    Nat.lt_irrefl _ (col_lt_of_transGen col_lt_diamondSheet hloop)
  have htrail : ∀ q, (diamondSheet.formula? q).isSome = true → q ∉ ([⟨1, 0⟩] : Trail) := by
    intro q hq
    obtain ⟨body, hbody⟩ := Option.isSome_iff_exists.1 hq
    rcases formula?_diamondSheet hbody with ⟨rfl, -⟩ | ⟨rfl, -⟩ <;> decide
  have hchain : ∀ cs, (⟨0, 2⟩ :: cs).IsChain (DependsOn diamondSheet Dimensions.standard) →
      1 + formulaCount diamondSheet (⟨0, 2⟩ :: cs) ≤ trailLimit := by
    intro cs hcs
    calc 1 + formulaCount diamondSheet (⟨0, 2⟩ :: cs)
      _ ≤ 1 + (⟨0, 2⟩ :: cs : List Position).length := Nat.add_le_add_left List.countP_le_length 1
      _ ≤ 1 + (2 + 1) := Nat.add_le_add_left (length_le_of_isChain col_lt_diamondSheet hcs) 1
      _ ≤ trailLimit := by decide
  obtain ⟨hrun, -, hshown⟩ := evaluate_eq_valueAt (fun q _ _ => hcycle q) (fun q _ => htrail q)
    (fun cs _ => hchain cs)
  exact ⟨hvalue ▸ hrun, hshown ⟨0, 1⟩ _ (.single hdepends) hbody⟩

end Spreadsheet.Formula
