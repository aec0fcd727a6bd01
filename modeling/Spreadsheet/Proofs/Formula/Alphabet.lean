import Spreadsheet.Proofs.Formula.TextOperands

/-!
# Spreadsheet.Proofs.Formula.Alphabet — the characters of arithmetic

A formula is tested for the characters of arithmetic before what is left of it is scanned, and the
scan knows the same characters: it refuses every text with another one, and in a text without one
nothing but a run of digits and points that is no number.  So another character makes an unknown name
of a formula, whatever else is wrong with it, and everything that fails behind the test is an error
of arithmetic.
-/

namespace Spreadsheet

open Arithmetic

namespace Token

/-! ### Runs that are no numbers -/

/-- A run of digits and points that is no number. -/
def isMalformed (run : List Char) : Bool := !run.isEmpty && (readNumber? run).isNone

/-- The first run of digits and points in a text that is no number; the runs are what stands between
the other characters. -/
def malformed? (cs : List Char) : Option (List Char) :=
  (cs.splitOnP fun c => !isNumeral c).find? isMalformed

/-- The computation stops at this malformed number, or nowhere if there is none. -/
def StopsAt {α : Type} (x : Except ArithmeticFault α) : Option (List Char) → Prop
  | none => ∃ a, x = .ok a
  | some run => x = .error (.badNumeral (String.ofList run))

theorem stopsAt_ok {α : Type} (a : α) : StopsAt (.ok a) none := ⟨a, rfl⟩

/-- Of two malformed numbers the first one counts. -/
theorem StopsAt.bind {α β : Type} {x : Except ArithmeticFault α} {k : α → Except ArithmeticFault β}
    {r r' : Option (List Char)} (hx : StopsAt x r) (hk : ∀ a, StopsAt (k a) r') :
    StopsAt (x >>= k) (r.or r') := by
  cases r with
  | none =>
    obtain ⟨a, rfl⟩ := hx
    exact hk a
  | some run =>
    obtain rfl : x = .error (.badNumeral (String.ofList run)) := hx
    rfl

theorem stopsAt_ofRun (run : List Char) : StopsAt (ofRun run) ([run].find? isMalformed) := by
  cases run with
  | nil => exact stopsAt_ok []
  | cons c cs =>
    rw [List.find?_cons, isMalformed, ofRun]
    cases readNumber? (c :: cs) with
    | none => rfl
    | some x => exact stopsAt_ok [number x]

end Token

namespace Formula

/-! ### The scan of a text -/

/-- The characters of arithmetic are those of numbers, the blanks and the symbols. -/
theorem isArithmetic_iff {c : Char} :
    isArithmetic c = true ↔ Token.isNumeral c = true ∨ isMark c = true := by
  constructor
  · intro h
    simp only [isArithmetic, Bool.or_eq_true, beq_iff_eq] at h
    rcases h with (((((((h | h) | rfl) | rfl) | rfl) | rfl) | rfl) | rfl) | rfl
    · exact .inl (by rw [Token.isNumeral, h, Bool.true_or])
    · exact .inr (isMark_of_isBlank h)
    · exact .inl rfl
    all_goals exact .inr rfl
  · rintro (h | h)
    · exact isArithmetic_of_isNumeral h
    · exact isArithmetic_of_isMark h

theorem isMark_of_ofChar {c : Char} {ts : List Token} (h : Token.ofChar c = .ok ts) :
    isMark c = true := by
  by_contra hmark
  rw [isMark, Bool.or_eq_true, not_or, Option.not_isSome_iff_eq_none] at hmark
  rw [Token.ofChar, if_neg hmark.1, hmark.2] at h
  cases h

/-- Only texts in the characters of arithmetic have tokens. -/
theorem isArithmetic_of_scanFrom {run cs : List Char} {ts : List Token}
    (h : Token.scanFrom run cs = .ok ts) : ∀ c ∈ cs, isArithmetic c = true := by
  induction cs generalizing run ts with
  | nil => exact List.forall_mem_nil _
  | cons c cs ih =>
    rw [Token.scanFrom] at h
    split at h
    · rename_i hnumeral
      exact List.forall_mem_cons.2 ⟨isArithmetic_of_isNumeral hnumeral, ih h⟩
    · obtain ⟨before, -, h⟩ := exists_ok_of_bind_ok h
      obtain ⟨here, hhere, h⟩ := exists_ok_of_bind_ok h
      obtain ⟨after, hafter, -⟩ := exists_ok_of_bind_ok h
      exact List.forall_mem_cons.2
        ⟨isArithmetic_of_isMark (isMark_of_ofChar hhere), ih hafter⟩

/-- In the characters of arithmetic, the scan stops at malformed numbers only.  The run that is open
is carried last first, by the scan as by the splitting of the text. -/
theorem stopsAt_scanFrom (run : List Char) {cs : List Char}
    (h : ∀ c ∈ cs, isArithmetic c = true) :
    Token.StopsAt (Token.scanFrom run cs)
      ((cs.splitOnPPrepend (fun c => !Token.isNumeral c) run).find? Token.isMalformed) := by
  induction cs generalizing run with
  | nil =>
    rw [List.splitOnPPrepend_nil]
    exact Token.stopsAt_ofRun run.reverse
  | cons c cs ih =>
    obtain ⟨hc, hcs⟩ := List.forall_mem_cons.1 h
    rw [Token.scanFrom]
    by_cases hnumeral : Token.isNumeral c = true
    · rw [if_pos hnumeral, List.splitOnPPrepend_cons_neg (by rw [hnumeral]; rfl)]
      exact ih (c :: run) hcs
    · -- the open run ends here; the mark itself stops nothing
      have hmark : isMark c = true := (isArithmetic_iff.1 hc).resolve_left hnumeral
      rw [if_neg hnumeral, List.splitOnPPrepend_cons_pos (by simp [hnumeral]),
        ← List.singleton_append, List.find?_append, ofChar_of_isMark hmark]
      refine (Token.stopsAt_ofRun run.reverse).bind fun before => ?_
      have hrest := (ih [] hcs).bind fun after =>
        Token.stopsAt_ok (before ++ tokensOfMark c ++ after)
      rwa [Option.or_none] at hrest

theorem stopsAt_scan {cs : List Char} (h : cs.all isArithmetic = true) :
    Token.StopsAt (Token.scan cs) (Token.malformed? cs) :=
  stopsAt_scanFrom [] (List.all_eq_true.1 h)

/-- A text has tokens exactly if it is written in the characters of arithmetic and holds no malformed
number. -/
theorem exists_scan_iff {cs : List Char} :
    (∃ ts, Token.scan cs = .ok ts) ↔
      cs.all isArithmetic = true ∧ Token.malformed? cs = none := by
  constructor
  · rintro ⟨ts, hts⟩
    have hall : cs.all isArithmetic = true := List.all_eq_true.2 (isArithmetic_of_scanFrom hts)
    refine ⟨hall, ?_⟩
    have hstops := stopsAt_scan hall
    cases hrun : Token.malformed? cs with
    | none => rfl
    | some run =>
      rw [hrun, hts] at hstops
      cases hstops
  · rintro ⟨hall, hnone⟩
    have hstops := stopsAt_scan hall
    rwa [hnone] at hstops

theorem scan_eq_error_iff {cs : List Char} (h : cs.all isArithmetic = true)
    {fault : ArithmeticFault} :
    Token.scan cs = .error fault ↔
      ∃ run, Token.malformed? cs = some run ∧ fault = .badNumeral (String.ofList run) := by
  have hstops := stopsAt_scan h
  cases hrun : Token.malformed? cs with
  | none =>
    rw [hrun] at hstops
    obtain ⟨ts, hts⟩ := hstops
    rw [hts]
    exact iff_of_false (by rintro ⟨⟩) (by rintro ⟨run, ⟨⟩, -⟩)
  | some run =>
    rw [hrun] at hstops
    rw [show Token.scan cs = _ from hstops, Except.error.injEq]
    constructor
    · rintro rfl
      exact ⟨run, rfl, rfl⟩
    · rintro ⟨run', hrun', rfl⟩
      rw [Option.some.inj hrun']

/-! ### The value of what is left -/

theorem residualValue_eq_name_iff {cs : List Char} :
    residualValue cs = .error .name ↔ ∃ c ∈ cs, isArithmetic c = false := by
  constructor
  · intro h
    by_contra hno
    refine residualValue_ne_name_of_all (List.all_eq_true.2 fun c hc => ?_) h
    exact Bool.eq_true_of_not_eq_false fun hchar => hno ⟨c, hc, hchar⟩
  · rintro ⟨c, hc, hchar⟩
    exact residualValue_of_not_isArithmetic hc hchar

theorem residualValue_eq_failed_iff {cs : List Char} :
    residualValue cs = .error .failed ↔
      (∀ c ∈ cs, isArithmetic c = true) ∧ ∃ fault, Arithmetic.evaluate cs = .error fault := by
  rw [residualValue, ← List.all_eq_true]
  split
  · rename_i hall
    rw [and_iff_right hall]
    cases Arithmetic.evaluate cs <;> simp
  · rename_i hall
    exact iff_of_false (by rintro ⟨⟩) fun h => hall h.1

/-! ### Formulas -/

section Formulas

variable {grid : Grid} {dims : Dimensions} {t : Trail} {body residual : List Char}

/-- Both passes over the text of a formula succeed on this trail, and this is what is left. -/
def PassesLeave (grid : Grid) (dims : Dimensions) (t : Trail) (body residual : List Char) : Prop :=
  ∃ aggregated,
    Reads t (Piece.expand (aggregateText dims grid.positionsIn (evaluate grid dims))
      (RangeCall.split (Text.upperCase body))).run (.ok aggregated) ∧
    Reads t (Piece.expand (referenceText dims (evaluate grid dims))
      (Reference.split aggregated)).run (.ok residual)

theorem passesLeave_iff :
    PassesLeave grid dims t body residual ↔
      residualOf dims (valueOn grid dims t) body = .ok residual := by
  -- evaluating the cells that a pass comes to gives their values and leaves the trail as it is
  have hvalue := reads_evaluate grid dims t
  have hblank : ∀ q, grid.get? q = none → valueOn grid dims t q = .empty :=
    fun q hq => valueOn_of_blank grid dims t hq
  have hcalls : ∀ ps, Reads t (Piece.expand (aggregateText dims grid.positionsIn
      (evaluate grid dims)) ps).run (Piece.replace (callChars dims (valueOn grid dims t)) ps) :=
    fun ps => reads_expand (reads_aggregateText hvalue hblank) ps
  have hreferences : ∀ ps, Reads t (Piece.expand (referenceText dims (evaluate grid dims)) ps).run
      (Piece.replace (referenceChars dims (valueOn grid dims t)) ps) :=
    fun ps => reads_expand (reads_referenceText hvalue) ps
  constructor
  · rintro ⟨aggregated, hfirst, hsecond⟩
    rw [residualOf, replaceCalls, (hcalls _).unique hfirst]
    exact (hreferences _).unique hsecond
  · intro h
    obtain ⟨aggregated, hfirst, hsecond⟩ := exists_ok_of_bind_ok h
    exact ⟨aggregated, hfirst ▸ hcalls _, hsecond ▸ hreferences _⟩

/-- The scan of a text and the test that a formula has to pass know the same characters.  A formula of
which both passes leave something is an unknown name exactly if that holds another character, and an
arithmetic error exactly if it holds none and its arithmetic fails. -/
theorem scan_shares_alphabet :
    (∀ cs, (∃ ts, Token.scan cs = .ok ts) ↔
      cs.all isArithmetic = true ∧ Token.malformed? cs = none) ∧
    (∀ cs fault, cs.all isArithmetic = true →
      (Token.scan cs = .error fault ↔
        ∃ run, Token.malformed? cs = some run ∧ fault = .badNumeral (String.ofList run))) ∧
    ∀ (grid : Grid) (dims : Dimensions) (t : Trail) (p : Position) (body residual : List Char),
      grid.formula? p = some body → p ∉ t → t.length < trailLimit →
      PassesLeave grid dims (t ++ [p]) body residual →
      (valueOn grid dims t p = .error .name ↔ ∃ c ∈ residual, isArithmetic c = false) ∧
      (valueOn grid dims t p = .error .failed ↔
        (∀ c ∈ residual, isArithmetic c = true) ∧
          ∃ fault, Arithmetic.evaluate residual = .error fault) := by
  refine ⟨fun cs => exists_scan_iff, fun cs fault h => scan_eq_error_iff h, ?_⟩
  intro grid dims t p body residual hbody hp hroom hleave
  have hvalue : valueOn grid dims t p = resultValue (residualValue residual) := by
    obtain ⟨raw, hraw, hbody⟩ := Grid.formula?_eq_some_iff.1 hbody
    rw [valueOn_of_formula grid dims hroom hp hraw hbody, bodyResult_eq_bind,
      passesLeave_iff.1 hleave]
    rfl
  -- the last step alone decides between the two errors
  have herror : ∀ e, valueOn grid dims t p = .error e ↔ residualValue residual = .error e := by
    intro e
    rw [hvalue]
    show resultValue _ = resultValue (.error e) ↔ _
    exact resultValue_inj
  exact ⟨(herror .name).trans residualValue_eq_name_iff,
    (herror .failed).trans residualValue_eq_failed_iff⟩

/-- A number with two points is refused first, whatever stands behind it: with an `é` the formula is
an unknown name, and without one an arithmetic error. -/
theorem scan_shares_alphabet_twoPoints :
    let named := namingSheet "1.2.3\u2003é"
    let failed := namingSheet "1.2.3\n+2"
    named.formula? ⟨0, 1⟩ = some ['A', '1'] ∧ failed.formula? ⟨0, 1⟩ = some ['A', '1'] ∧
      PassesLeave named Dimensions.standard [⟨0, 1⟩] ['A', '1'] "1.2.3\u2003é".toList ∧
      PassesLeave failed Dimensions.standard [⟨0, 1⟩] ['A', '1'] "1.2.3\n+2".toList ∧
      "1.2.3\n+2".toList.all isArithmetic = true ∧
      Token.scan "1.2.3\u2003é".toList = .error (.badNumeral "1.2.3") ∧
      Token.scan "1.2.3\n+2".toList = .error (.badNumeral "1.2.3") ∧
      valueOn named Dimensions.standard [] ⟨0, 1⟩ = .error .name ∧
      valueOn failed Dimensions.standard [] ⟨0, 1⟩ = .error .failed := by
  intro named failed
  obtain ⟨-, hscan, hformula⟩ := scan_shares_alphabet
  have hnamed : PassesLeave named Dimensions.standard [⟨0, 1⟩] ['A', '1'] "1.2.3\u2003é".toList :=
    passesLeave_iff.2 (by decide +kernel)
  have hfailed : PassesLeave failed Dimensions.standard [⟨0, 1⟩] ['A', '1'] "1.2.3\n+2".toList :=
    passesLeave_iff.2 (by decide +kernel)
  have hall : "1.2.3\n+2".toList.all isArithmetic = true := by decide
  refine ⟨formula?_namingSheet _, formula?_namingSheet _, hnamed, hfailed, hall, by decide +kernel,
    (hscan _ _ hall).2 ⟨"1.2.3".toList, by decide +kernel, rfl⟩, ?_, ?_⟩
  · exact (hformula _ _ [] _ _ _ (formula?_namingSheet _) List.not_mem_nil (by decide) hnamed).1.2
      ⟨'é', by decide, by decide⟩
  · exact (hformula _ _ [] _ _ _ (formula?_namingSheet _) List.not_mem_nil (by decide) hfailed).2.2
      ⟨List.all_eq_true.1 hall, .badNumeral "1.2.3", by decide +kernel⟩

end Formulas

end Formula

end Spreadsheet
