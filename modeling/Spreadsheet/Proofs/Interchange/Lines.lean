import Spreadsheet.Interchange.Block

/-!
# Spreadsheet.Proofs.Interchange.Lines — joined pieces are cut apart again

Pieces without the separator come back from a joined text as they went in.  One line break is
dropped at the end of a text, and joined lines end with one exactly if there are several and the
last of them is empty; so an empty last line is the only one that gets lost.
-/

namespace Spreadsheet

namespace Interchange

section Split

variable {sep : Char}

theorem splitAt_of_not_mem {cs : List Char} (h : sep ∉ cs) : splitAt sep cs = [cs] := by
  induction cs with
  | nil => rfl
  | cons c cs ih =>
    rw [List.mem_cons, not_or] at h
    obtain ⟨hc, hcs⟩ := h
    rw [splitAt, if_neg (Ne.symm hc), ih hcs]

/-- The first separator ends the first piece. -/
theorem splitAt_append {piece : List Char} (h : sep ∉ piece) (cs : List Char) :
    splitAt sep (piece ++ sep :: cs) = piece :: splitAt sep cs := by
  induction piece with
  | nil => rw [List.nil_append, splitAt, if_pos rfl]
  | cons c piece ih =>
    rw [List.mem_cons, not_or] at h
    obtain ⟨hc, hpiece⟩ := h
    rw [List.cons_append, splitAt, if_neg (Ne.symm hc), ih hpiece]

theorem splitAt_joinWith {pieces : List (List Char)} (hne : pieces ≠ [])
    (h : ∀ piece ∈ pieces, sep ∉ piece) : splitAt sep (joinWith sep pieces) = pieces := by
  induction pieces with
  | nil => exact absurd rfl hne
  | cons piece pieces ih =>
    obtain ⟨hpiece, hpieces⟩ := List.forall_mem_cons.1 h
    cases pieces with
    | nil => exact splitAt_of_not_mem hpiece
    | cons next pieces =>
      have hjoin : joinWith sep (piece :: next :: pieces) =
          piece ++ sep :: joinWith sep (next :: pieces) := rfl
      rw [hjoin, splitAt_append hpiece, ih (List.cons_ne_nil _ _) hpieces]

theorem mem_of_mem_splitAt {cs piece : List Char} (h : piece ∈ splitAt sep cs) :
    sep ∉ piece ∧ ∀ c ∈ piece, c ∈ cs := by
  induction cs generalizing piece with
  | nil =>
    obtain rfl := List.mem_singleton.1 h
    exact ⟨List.not_mem_nil, List.forall_mem_nil _⟩
  | cons c cs ih =>
    rw [splitAt] at h
    split at h
    · rcases List.mem_cons.1 h with rfl | h
      · exact ⟨List.not_mem_nil, List.forall_mem_nil _⟩
      · exact (ih h).imp_right fun hin d hd => List.mem_cons_of_mem c (hin d hd)
    · rename_i hc
      split at h
      · rename_i hnil
        exact absurd hnil (splitAt_ne_nil sep cs)
      · rename_i first pieces hsplit
        rw [hsplit] at ih
        rcases List.mem_cons.1 h with rfl | h
        · obtain ⟨hno, hin⟩ := ih List.mem_cons_self
          exact ⟨List.not_mem_cons_of_ne_of_not_mem (Ne.symm hc) hno,
            List.forall_mem_cons.2 ⟨List.mem_cons_self, fun d hd => List.mem_cons_of_mem c (hin d hd)⟩⟩
        · exact (ih (List.mem_cons_of_mem _ h)).imp_right fun hin d hd =>
            List.mem_cons_of_mem c (hin d hd)

/-- The pieces of a text are the texts without the separator that make it when they are joined. -/
theorem splitAt_eq_iff {cs : List Char} {pieces : List (List Char)} :
    splitAt sep cs = pieces ↔
      pieces ≠ [] ∧ (∀ piece ∈ pieces, sep ∉ piece) ∧ joinWith sep pieces = cs := by
  constructor
  · rintro rfl
    exact ⟨splitAt_ne_nil sep cs, fun piece h => (mem_of_mem_splitAt h).1, joinWith_splitAt sep cs⟩
  · rintro ⟨hne, hplain, rfl⟩
    exact splitAt_joinWith hne hplain

theorem mem_joinWith {pieces : List (List Char)} {c : Char} (h : c ∈ joinWith sep pieces) :
    c = sep ∨ ∃ piece ∈ pieces, c ∈ piece := by
  induction pieces with
  | nil => cases h
  | cons piece pieces ih =>
    cases pieces with
    | nil => exact .inr ⟨piece, List.mem_cons_self, h⟩
    | cons next pieces =>
      have hjoin : joinWith sep (piece :: next :: pieces) =
          piece ++ sep :: joinWith sep (next :: pieces) := rfl
      rw [hjoin, List.mem_append, List.mem_cons] at h
      rcases h with h | h | h
      · exact .inr ⟨piece, List.mem_cons_self, h⟩
      · exact .inl h
      · refine (ih h).imp_right ?_
        rintro ⟨piece', hpiece', hc⟩
        exact ⟨piece', List.mem_cons_of_mem _ hpiece', hc⟩

theorem joinWith_concat {pieces : List (List Char)} (hne : pieces ≠ []) (last : List Char) :
    joinWith sep (pieces ++ [last]) = joinWith sep pieces ++ sep :: last := by
  induction pieces with
  | nil => exact absurd rfl hne
  | cons piece pieces ih =>
    cases pieces with
    | nil => rfl
    | cons next pieces =>
      have hjoin (ps : List (List Char)) : joinWith sep (piece :: next :: ps) =
          piece ++ sep :: joinWith sep (next :: ps) := rfl
      rw [List.cons_append, List.cons_append, hjoin, ← List.cons_append, ih (List.cons_ne_nil _ _),
        hjoin, List.append_assoc]
      rfl

end Split

theorem unifyBreaks_of_not_mem {cs : List Char} (h : '\r' ∉ cs) : unifyBreaks cs = cs := by
  induction cs with
  | nil => rfl
  | cons c cs ih =>
    rw [List.mem_cons, not_or] at h
    obtain ⟨hc, hcs⟩ := h
    rw [unifyBreaks, ih hcs]
    rintro cs' rfl -
    exact hc rfl

theorem dropFinalBreak_of_not_mem {cs : List Char} (h : '\n' ∉ cs) : dropFinalBreak cs = cs :=
  if_neg fun hlast => h (List.mem_of_getLast? hlast)

/-- Of joined lines an empty last one is lost, if it is not the only one. -/
theorem dropFinalBreak_joinWith {lines : List (List Char)} {last : List Char} (hne : lines ≠ [])
    (hlast : '\n' ∉ last) :
    dropFinalBreak (joinWith '\n' (lines ++ [last])) =
      joinWith '\n' (if last = [] then lines else lines ++ [last]) := by
  rw [joinWith_concat hne, dropFinalBreak, List.getLast?_append, List.getLast?_cons]
  by_cases hempty : last = []
  · have hend : ((some (([] : List Char).getLast?.getD '\n')).or (joinWith '\n' lines).getLast?) =
        some '\n' := rfl
    rw [hempty, if_pos hend, if_pos rfl, List.dropLast_concat]
  · obtain ⟨c, hc⟩ := Option.isSome_iff_exists.1 (List.getLast?_isSome.2 hempty)
    have hbreak : c ≠ '\n' := by
      rintro rfl
      exact hlast (List.mem_of_getLast? hc)
    rw [hc, if_neg hempty, joinWith_concat hne, if_neg]
    simpa using hbreak

/-- Lines without breaks are read back from a text as they went in, but for an empty last one that is
not the only one. -/
theorem fieldRows_joinWith {lines : List (List Char)} {last : List Char}
    (hclean : ∀ line ∈ lines ++ [last], '\r' ∉ line ∧ '\n' ∉ line) :
    fieldRows (String.ofList (joinWith '\n' (lines ++ [last]))) =
      (if lines ≠ [] ∧ last = [] then lines else lines ++ [last]).map fun line =>
        (splitAt '\t' line).map String.ofList := by
  have hbreaks : '\r' ∉ joinWith '\n' (lines ++ [last]) := by
    intro hc
    rcases mem_joinWith hc with hc | ⟨line, hline, hc⟩
    · cases hc
    · exact (hclean line hline).1 hc
  have hend : '\n' ∉ last := (hclean last (by simp)).2
  rw [fieldRows, String.toList_ofList, unifyBreaks_of_not_mem hbreaks]
  by_cases hlost : lines ≠ [] ∧ last = []
  · rw [dropFinalBreak_joinWith hlost.1 hend, if_pos hlost.2, if_pos hlost, splitAt_joinWith hlost.1]
    exact fun line hline => (hclean line (List.mem_append_left _ hline)).2
  · -- the text does not end with a break, so nothing is stripped
    have hkept : dropFinalBreak (joinWith '\n' (lines ++ [last])) =
        joinWith '\n' (lines ++ [last]) := by
      by_cases hlines : lines = []
      · rw [hlines]
        exact dropFinalBreak_of_not_mem hend
      · rw [dropFinalBreak_joinWith hlines hend, if_neg fun hlast => hlost ⟨hlines, hlast⟩]
    rw [hkept, if_neg hlost, splitAt_joinWith]
    · exact List.append_ne_nil_of_right_ne_nil _ (List.cons_ne_nil _ _)
    · exact fun line hline => (hclean line hline).2

end Interchange

end Spreadsheet
