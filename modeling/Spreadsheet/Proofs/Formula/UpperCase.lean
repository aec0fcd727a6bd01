import Spreadsheet.Proofs.Address.Name
import Spreadsheet.Proofs.Arithmetic.Phrase
import Spreadsheet.Proofs.Formula.Language
import Spreadsheet.Proofs.Text.Classes

/-!
# Spreadsheet.Proofs.Formula.UpperCase — a formula in upper case

Upper case acts on the names in a formula and leaves everything else as it is.  It does not change
the function that a call names, nor the cell that a name stands for.
-/

namespace Spreadsheet

open Arithmetic

theorem Text.upperCase_eq_self {cs : List Char} (h : ∀ c ∈ cs, upperCaseChar c = [c]) :
    upperCase cs = cs := by
  induction cs with
  | nil => rfl
  | cons c cs ih =>
    rw [upperCase, List.flatMap_cons, h c List.mem_cons_self]
    exact congrArg (c :: ·) (ih fun d hd => h d (List.mem_cons_of_mem c hd))

theorem Text.upperCaseChar_of_mem {c d : Char} (h : d ∈ upperCaseChar c) :
    upperCaseChar d = [d] := by
  rw [upperCaseChar] at h
  split at h
  · rename_i hc
    rw [List.mem_singleton] at h
    subst h
    cases hlow : c.isLower with
    | false =>
      rw [toUpper_of_not_isLower hlow]
      exact upperCaseChar_of_not_isLower hlow hc
    | true =>
      have hup : c.toUpper.isUpper = true := isUpper_toUpper (isAlpha_iff.2 (.inr hlow))
      refine upperCaseChar_of_not_isLower (not_isLower_of_isUpper hup) ?_
      rw [isUpper_iff] at hup
      omega
  · rename_i hc
    cases hlookup : specialUpperCase.lookup c with
    | none =>
      rw [hlookup, Option.getD_none, List.mem_singleton] at h
      subst h
      rw [upperCaseChar, if_neg hc, hlookup, Option.getD_none]
    | some ds =>
      rw [hlookup, Option.getD_some] at h
      -- the characters with a longer upper case are few enough to try
      have hall : (specialUpperCase.all fun e => e.2.all fun d => upperCaseChar d == [d]) = true :=
        by decide
      obtain ⟨before, after, htable, -⟩ := List.lookup_eq_some_iff.1 hlookup
      have hmem : (c, ds) ∈ specialUpperCase := htable ▸ List.mem_append_right _ List.mem_cons_self
      exact eq_of_beq (List.all_eq_true.1 (List.all_eq_true.1 hall _ hmem) d h)

/-- Upper case stays as it is. -/
theorem Text.upperCase_upperCase (cs : List Char) : upperCase (upperCase cs) = upperCase cs := by
  refine upperCase_eq_self fun c hc => ?_
  obtain ⟨d, -, hc⟩ := List.mem_flatMap.1 hc
  exact upperCaseChar_of_mem hc

theorem Text.upperCase_letters {cs : List Char} (h : ∀ c ∈ cs, c.isAlpha = true) :
    upperCase cs = cs.map Char.toUpper := by
  induction cs with
  | nil => rfl
  | cons c cs ih =>
    rw [upperCase, List.flatMap_cons, upperCaseChar_of_isAlpha (h c List.mem_cons_self)]
    exact congrArg (c.toUpper :: ·) (ih fun d hd => h d (List.mem_cons_of_mem c hd))

theorem Text.upperCaseChar_of_isMark {c : Char} (h : isMark c = true) : upperCaseChar c = [c] := by
  rcases isMark_cases h with h | rfl | rfl | rfl | rfl | rfl | rfl
  · exact upperCaseChar_of_isBlank h
  all_goals rfl

namespace Formula

/-- A cell name as the passes read it. -/
def CellName.upper (n : CellName) : Reference := ⟨n.letters.map Char.toUpper, n.digits⟩

/-- A call as the first pass reads it. -/
def Call.upper (c : Call) : RangeCall := ⟨c.function, c.first.upper, c.last.upper⟩

/-- The characters of a call in upper case, up to its closing parenthesis. -/
def Call.upperText (c : Call) : List Char :=
  c.function.name.toList ++ '(' :: (c.gap₁.1 ++ (c.first.upper.text ++ (c.gap₂.1 ++ ':' ::
    (c.gap₃.1 ++ (c.last.upper.text ++ c.gap₄.1)))))

/-- The characters of an operand in upper case. -/
def Operand.upperText : Operand → List Char
  | numeral n => n.text
  | name n => n.upper.text
  | call c => c.upperText ++ [')']

theorem upperCase_numeral (n : Numeral) : Text.upperCase n.text = n.text := by
  refine Text.upperCase_eq_self fun c hc => ?_
  have h := n.isNumeral c hc
  rw [Token.isNumeral, Bool.or_eq_true, beq_iff_eq] at h
  rcases h with h | rfl
  · exact Text.upperCaseChar_of_isDigit h
  · decide

theorem upperCase_name (n : CellName) : Text.upperCase n.text = n.upper.text := by
  rw [CellName.text, Text.upperCase_append, Text.upperCase_letters n.isAlpha,
    Text.upperCase_eq_self fun c hc => Text.upperCaseChar_of_isDigit (n.isDigit c hc)]
  rfl

theorem upperCase_blanks (b : Blanks) : Text.upperCase b.1 = b.1 :=
  Text.upperCase_eq_self fun c hc => Text.upperCaseChar_of_isBlank (b.2 c hc)

theorem isUpper_of_mem_name {f : Aggregate} {c : Char} (h : c ∈ f.name.toList) :
    c.isUpper = true := by
  have hall : f.name.toList.all Char.isUpper = true := by cases f <;> decide
  exact List.all_eq_true.1 hall c h

theorem isAlpha_of_mem_callName {k : Call} {c : Char} (h : c ∈ k.name) : c.isAlpha = true := by
  have hup : c.toUpper.isUpper = true := by
    refine isUpper_of_mem_name (f := k.function) ?_
    rw [← k.named]
    exact List.mem_map_of_mem h
  rw [Text.isAlpha_iff]
  cases hlow : c.isLower with
  | true => exact .inr rfl
  | false =>
    rw [Text.toUpper_of_not_isLower hlow] at hup
    exact .inl hup

theorem upperCase_call (k : Call) : Text.upperCase k.text = k.upperText ++ [')'] := by
  have hcons : ∀ (c : Char) (cs : List Char), Text.upperCaseChar c = [c] →
      Text.upperCase (c :: cs) = c :: Text.upperCase cs := by
    intro c cs h
    rw [Text.upperCase, List.flatMap_cons, h]
    rfl
  rw [Call.text, Call.upperText, Text.upperCase_append,
    Text.upperCase_letters fun c hc => isAlpha_of_mem_callName hc, k.named, hcons '(' _ (by decide)]
  simp only [Text.upperCase_append, upperCase_blanks, upperCase_name, hcons ':' _ (by decide),
    List.append_assoc, List.cons_append]
  rfl

theorem upperCase_operand (a : Operand) : Text.upperCase a.text = a.upperText := by
  cases a with
  | numeral n => exact upperCase_numeral n
  | name n => exact upperCase_name n
  | call k => exact upperCase_call k

/-- A formula's text in upper case is its phrase with every operand in upper case. -/
theorem upperCase_body (s : Body) : Text.upperCase (bodyText s) = s.text Operand.upperText := by
  have hp : Pass (fun c => [c]) (fun cs => (pure (Text.upperCase cs) : Id (List Char))) := by
    refine ⟨rfl, fun c cs h => ?_⟩
    have hc := Text.upperCaseChar_of_isMark h
    show Text.upperCase (c :: cs) = [c] ++ Text.upperCase cs
    rw [Text.upperCase, List.flatMap_cons, hc]
    rfl
  have h := hp.rewrites Operand.text Operand.upperText s
    (fun a _ cs _ => by
      show Text.upperCase (a.text ++ cs) = a.upperText ++ Text.upperCase cs
      rw [Text.upperCase_append, upperCase_operand]) closed_nil
  have h' : Text.upperCase (s.text Operand.text ++ []) =
      s.text Operand.upperText ++ Text.upperCase [] := h
  rwa [List.append_nil, show Text.upperCase [] = [] from rfl, List.append_nil] at h'

theorem foldlM_extend_toUpper {cs : List Char} (h : ∀ c ∈ cs, c.isAlpha = true) (n : Nat) :
    (cs.map Char.toUpper).foldlM Column.extend n = cs.foldlM Column.extend n := by
  induction cs generalizing n with
  | nil => rfl
  | cons c cs ih =>
    have hc := h c List.mem_cons_self
    have hup : c.toUpper.isAlpha = true := Text.isAlpha_iff.2 (.inl (Text.isUpper_toUpper hc))
    have hextend : Column.extend n c.toUpper = Column.extend n c := by
      rw [Column.extend, Column.extend, hc, hup, Column.rank, Column.rank, Text.toUpper_toUpper hc]
    rw [List.map_cons, List.foldlM_cons, List.foldlM_cons, hextend]
    exact bind_congr fun m => ih (fun d hd => h d (List.mem_cons_of_mem c hd)) m

/-- Upper case does not change the cell that a name stands for. -/
theorem ofIdText?_upper (n : CellName) : Position.ofIdText? n.upper.text = n.position? := by
  have hup : ∀ c ∈ n.letters.map Char.toUpper, c.isAlpha = true := by
    intro c hc
    obtain ⟨d, hd, rfl⟩ := List.mem_map.1 hc
    exact Text.isAlpha_iff.2 (.inl (Text.isUpper_toUpper (n.isAlpha d hd)))
  have hindex : Column.index? (n.letters.map Char.toUpper) = Column.index? n.letters := by
    rw [Column.index?, Column.index?, foldlM_extend_toUpper n.isAlpha, List.isEmpty_map]
  rw [CellName.position?, CellName.text, Position.ofIdText?_append n.isAlpha n.isDigit,
    CellName.upper, Reference.text, Position.ofIdText?_append hup n.isDigit, hindex]

end Formula

end Spreadsheet
