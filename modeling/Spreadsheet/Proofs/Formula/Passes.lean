import Spreadsheet.Proofs.Formula.Parts

/-!
# Spreadsheet.Proofs.Formula.Passes — the two passes replace the parts of a formula

The second pass reads what the first one has written, but it finds the same references there as in
the formula, because an aggregate is written without capital letters and stands behind something
that ends every reference.  So if both passes succeed, the text that they leave is the formula with
every part replaced.
-/

namespace Spreadsheet

namespace Piece

variable {α : Type}

theorem replace_append (f : α → Except ErrorValue (List Char)) (ps qs : List (Piece α)) :
    replace f (ps ++ qs) = do
      let before ← replace f ps
      let after ← replace f qs
      return before ++ after := by
  induction ps with
  | nil =>
    rw [List.nil_append, replace, pure_bind]
    simp
  | cons piece ps ih =>
    cases piece with
    | plain c =>
      rw [List.cons_append, replace, replace, ih]
      simp [Functor.map_map]
    | part a =>
      rw [List.cons_append, replace, replace, ih]
      simp only [bind_assoc, pure_bind]
      refine bind_congr fun here => bind_congr fun before => bind_congr fun after => ?_
      rw [List.append_assoc]

end Piece

namespace Formula

section Passes

variable (dims : Dimensions) (valueOf : Position → Value)

/-- What a part is replaced by. -/
def partChars : Part → Except ErrorValue (List Char)
  | .call k => callChars dims valueOf k
  | .name r => referenceChars dims valueOf r

theorem replace_inFormula (ps : List (Piece Reference)) :
    Piece.replace (partChars dims valueOf) (ps.map inFormula) =
      Piece.replace (referenceChars dims valueOf) ps := by
  induction ps with
  | nil => rfl
  | cons p ps ih =>
    cases p with
    | plain c => rw [List.map_cons, inFormula, Piece.replace, Piece.replace, ih]
    | part r =>
      rw [List.map_cons, inFormula, Piece.replace, Piece.replace, ih]
      rfl

variable {dims valueOf} {letters digits : List Char}

/-- A digit that is none of `0` to `9` keeps a reference from having a replacement. -/
theorem exists_error_of_large (h : ∃ d ∈ digits, 0x80 ≤ d.toNat) (cs : List Char) :
    ∃ e, Piece.replace (referenceChars dims valueOf) (Reference.splitFrom letters digits cs) =
      .error e := by
  -- what has been read cannot be replaced, whatever comes behind it
  have hread {letters digits : List Char} (h : ∃ d ∈ digits, 0x80 ≤ d.toNat)
      (ps : List (Piece Reference)) : ∃ e, Piece.replace (referenceChars dims valueOf)
        (Reference.piecesOf letters digits ++ ps) = .error e := by
    obtain ⟨d, hd, hlarge⟩ := h
    have hne : ¬ digits.isEmpty = true := by
      rw [List.isEmpty_iff]
      rintro rfl
      cases hd
    have hmem : d ∈ Reference.text ⟨letters.reverse, digits.reverse⟩ :=
      List.mem_append_right _ (List.mem_reverse.2 hd)
    have hnone : referenceChars dims valueOf ⟨letters.reverse, digits.reverse⟩ =
        .error .reference := by
      rw [referenceChars, Position.ofIdText?_eq_none hmem hlarge]
      rfl
    refine ⟨.reference, ?_⟩
    rw [Reference.piecesOf, if_neg hne, List.singleton_append, Piece.replace, hnone]
    rfl
  induction cs generalizing letters digits with
  | nil =>
    obtain ⟨e, he⟩ := hread h []
    rw [List.append_nil] at he
    exact ⟨e, he⟩
  | cons c cs ih =>
    obtain ⟨d, hd, hlarge⟩ := h
    rw [Reference.splitFrom]
    split_ifs with hdigit hup
    · exact ih ⟨d, List.mem_cons_of_mem c hd, hlarge⟩
    · rw [Bool.and_eq_true, List.isEmpty_iff] at hup
      rw [hup.2] at hd
      cases hd
    · exact hread ⟨d, hd, hlarge⟩ _
    · exact hread ⟨d, hd, hlarge⟩ _

/-- Two texts that go on behind the same character are replaced alike if they are behind every state
in which that character can leave the scan. -/
theorem replace_cutFrom_cons {c : Char} {cs : List Char} {ps : List (Piece RangeCall)}
    (h : ∀ letters digits, (RangeCall.separates c = true → Reference.Idle letters digits) →
      ∀ residual, Piece.replace (referenceChars dims valueOf) (Reference.splitFrom letters digits cs) =
          .ok residual →
        Piece.replace (partChars dims valueOf) (cutFrom letters digits ps) = .ok residual)
    {residual : List Char} (hreplace : Piece.replace (referenceChars dims valueOf)
      (Reference.splitFrom letters digits (c :: cs)) = .ok residual) :
    Piece.replace (partChars dims valueOf) (cutFrom letters digits (.plain c :: ps)) =
      .ok residual := by
  have hletter (hup : c.isUpper = true) : ¬ RangeCall.separates c = true := by
    rw [RangeCall.separates, hup]
    exact Bool.false_ne_true
  rw [Reference.splitFrom] at hreplace
  rw [cutFrom]
  -- the name goes on with a digit or a letter, another one begins, or none is open any more
  split_ifs at hreplace ⊢ with hdigit hup hup'
  · rw [Bool.and_eq_true] at hdigit
    exact h _ _ (fun hc => Reference.idle_digit hc hdigit.2 letters digits) _ hreplace
  · rw [Bool.and_eq_true] at hup
    exact h _ _ (fun hc => absurd hc (hletter hup.1)) _ hreplace
  · rw [Piece.replace_append] at hreplace ⊢
    obtain ⟨before, hbefore, hreplace⟩ := exists_ok_of_bind_ok hreplace
    obtain ⟨after, hafter, hreplace⟩ := exists_ok_of_bind_ok hreplace
    rw [replace_inFormula, hbefore, h _ _ (fun hc => absurd hc (hletter hup')) _ hafter]
    exact hreplace
  · rw [Piece.replace_append, Piece.replace] at hreplace ⊢
    obtain ⟨before, hbefore, hreplace⟩ := exists_ok_of_bind_ok hreplace
    obtain ⟨here, hhere, hreplace⟩ := exists_ok_of_bind_ok hreplace
    obtain ⟨after, hafter, hhere⟩ := exists_ok_of_bind_ok hhere
    rw [replace_inFormula, hbefore, h _ _ (fun _ => Reference.idle_nil) _ hafter]
    cases hhere
    exact hreplace

/-- If both passes succeed, they replace the parts and nothing else. -/
theorem replace_cutFrom (hfinite : FiniteNumbers valueOf) (skip : Nat) (mayBegin : Bool)
    (cs : List Char) (hidle : mayBegin = true → Reference.Idle letters digits)
    {aggregated residual : List Char}
    (hcalls : Piece.replace (callChars dims valueOf) (RangeCall.splitFrom skip mayBegin cs) =
      .ok aggregated)
    (hnames : Piece.replace (referenceChars dims valueOf)
      (Reference.splitFrom letters digits aggregated) = .ok residual) :
    Piece.replace (partChars dims valueOf)
      (cutFrom letters digits (RangeCall.splitFrom skip mayBegin cs)) = .ok residual := by
  -- induction on the text; a call begins only where what is open can no longer become a name
  induction cs generalizing skip mayBegin letters digits aggregated residual with
  | nil =>
    cases hcalls
    rw [Reference.splitFrom] at hnames
    rw [RangeCall.splitFrom, cutFrom, replace_inFormula, hnames]
  | cons c cs ih =>
    cases skip with
    | succ k => exact ih k mayBegin hidle hcalls hnames
    | zero =>
      rw [RangeCall.splitFrom] at hcalls ⊢
      cases hcall : if mayBegin = true then RangeCall.read? (c :: cs) else none with
      | some call =>
        rw [hcall] at hcalls
        have hbegin : mayBegin = true := by
          by_contra hno
          rw [if_neg hno] at hcall
          cases hcall
        obtain ⟨here, hhere, hcalls⟩ := exists_ok_of_bind_ok hcalls
        obtain ⟨rest, hrest, hcalls⟩ := exists_ok_of_bind_ok hcalls
        cases hcalls
        -- nothing is open before the call, or what is open makes the second pass fail
        rcases hidle hbegin with ⟨rfl, rfl⟩ | hlarge
        · have hplain := Reference.split_plain_append
            (fun c hc => not_isUpper_callChars hfinite hhere c hc) rest
          rw [Reference.split] at hplain
          rw [hplain, Piece.replace_plain_append] at hnames
          obtain ⟨after, hafter, rfl⟩ := exists_ok_of_map_ok hnames
          have hnext := ih _ false (fun hno => absurd hno Bool.false_ne_true) hrest hafter
          show Piece.replace (partChars dims valueOf) (.part (.call call) :: cutFrom [] [] _) = _
          rw [Piece.replace_part, partChars, hhere, hnext]
          rfl
        · obtain ⟨e, he⟩ : ∃ e, Piece.replace (referenceChars dims valueOf)
              (Reference.splitFrom letters digits (here ++ rest)) = .error e :=
            exists_error_of_large hlarge (here ++ rest)
          rw [he] at hnames
          cases hnames
      | none =>
        rw [hcall] at hcalls
        obtain ⟨rest, hrest, hcalls⟩ := exists_ok_of_bind_ok hcalls
        cases hcalls
        exact replace_cutFrom_cons (fun _ _ hidle _ hnames => ih 0 _ hidle hrest hnames) hnames

/-- The text of a part's replacement, none if there is no replacement. -/
def shownPart (dims : Dimensions) (valueOf : Position → Value) (a : Part) : List Char :=
  match partChars dims valueOf a with
  | .ok cs => cs
  | .error _ => []

theorem replace_eq_shownText {ps : List (Piece Part)} {residual : List Char}
    (h : Piece.replace (partChars dims valueOf) ps = .ok residual) :
    residual = shownText (shownPart dims valueOf) ps ∧
      ∀ a ∈ Piece.parts ps, partChars dims valueOf a = .ok (shownPart dims valueOf a) := by
  induction ps generalizing residual with
  | nil =>
    cases h
    exact ⟨rfl, fun a ha => (List.not_mem_nil ha).elim⟩
  | cons p ps ih =>
    cases p with
    | plain c =>
      obtain ⟨rest, hrest, h⟩ := exists_ok_of_bind_ok h
      cases h
      obtain ⟨htext, hparts⟩ := ih hrest
      exact ⟨congrArg (c :: ·) htext, hparts⟩
    | part a =>
      obtain ⟨here, hhere, h⟩ := exists_ok_of_bind_ok h
      obtain ⟨rest, hrest, h⟩ := exists_ok_of_bind_ok h
      cases h
      obtain ⟨htext, hparts⟩ := ih hrest
      -- a part that has a replacement is shown as it
      have hshown : shownPart dims valueOf a = here := by rw [shownPart, hhere]
      refine ⟨by rw [shownText, hshown, htext], ?_⟩
      rintro b hb
      rcases List.mem_cons.1 (show b ∈ a :: Piece.parts ps from hb) with rfl | hb
      · rw [hhere, hshown]
      · exact hparts b hb

end Passes

end Formula

end Spreadsheet
