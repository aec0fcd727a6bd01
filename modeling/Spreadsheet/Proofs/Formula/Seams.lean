import Spreadsheet.Proofs.Arithmetic.Derivation
import Spreadsheet.Proofs.Formula.Recursion

/-!
# Spreadsheet.Proofs.Formula.Seams — where a number that is put in place joins its neighbours

When the parts of a formula are replaced by numbers, a number can join what stands beside it in two
ways: its digits meet other digits or a point and make one numeral with them, or it is negative
zero, whose sign becomes an operator behind something that is an operand already.  `joinsFrom` finds
both.  If there is no such seam, arithmetic that reads the replaced text has read the formula itself:
the formula is a phrase whose operands are its numerals and its parts.
-/

namespace Spreadsheet

namespace Formula

open Arithmetic

/-! ### Numbers that are put in place -/

/-- The texts of finite numbers with the trees that they stand for: a numeral, a numeral with a
minus sign in parentheses, or negative zero. -/
inductive Shown : List Char → Expr → Prop where
  | numeral (n : Numeral) : Shown n.text (.number n.value)
  | negative (n : Numeral) : Shown ('(' :: '-' :: (n.text ++ [')'])) (.neg (.number n.value))
  | minus (n : Numeral) : Shown ('-' :: n.text) (.neg (.number n.value))

theorem exists_shown_spliced {x : Float} (hx : x.isFinite = true) : ∃ e, Shown (spliced x) e := by
  have h := (Binary64.isFinite_iff x).1 hx
  set n := Numeral.ofMagnitude (Binary64.magnitude x) h with hn
  rw [spliced_eq (Nat.le_of_lt h)]
  split
  · split
    · rename_i h0
      rw [← h0]
      exact ⟨_, .minus n⟩
    · exact ⟨_, .negative n⟩
  · exact ⟨_, .numeral n⟩

/-- Whether a text begins with a numeral. -/
def startsNumeral (cs : List Char) : Bool := cs.head?.any Token.isNumeral

/-- Whether a text ends with a numeral. -/
def endsNumeral (cs : List Char) : Bool := cs.getLast?.any Token.isNumeral

/-- Whether an operand may end with this character. -/
def endsOperand (c : Char) : Bool := Token.isNumeral c || c == ')'

theorem Numeral.endsNumeral_text (n : Numeral) : endsNumeral n.text = true := by
  rw [endsNumeral, List.getLast?_eq_some_getLast n.filled]
  exact n.isNumeral _ (List.getLast_mem n.filled)

theorem Shown.ne_nil {cs : List Char} {e : Expr} (h : Shown cs e) : cs ≠ [] := by
  cases h with
  | numeral n => exact n.filled
  | negative n => exact List.cons_ne_nil _ _
  | minus n => exact List.cons_ne_nil _ _

/-! ### Seams -/

section Seams

variable {β : Type} (shown : β → List Char)

/-- The text of pieces with every part replaced by its characters. -/
def shownText : List (Piece β) → List Char
  | [] => []
  | .plain c :: ps => c :: shownText ps
  | .part b :: ps => shown b ++ shownText ps

/-- Whether a part joins its neighbours.  The character before the pieces is a numeral of the
formula (`typed`), or one that has been put in place (`put`), or none; and the last character before
them that is not blank may end an operand (`ended`). -/
def joinsFrom (typed put ended : Bool) : List (Piece β) → Bool
  | [] => false
  | .plain c :: ps =>
    put && Token.isNumeral c ||
      joinsFrom (Token.isNumeral c) false (if Text.isBlank c then ended else endsOperand c) ps
  | .part b :: ps =>
    (typed || put) && startsNumeral (shown b) || ended && (shown b).head? == some '-' ||
      joinsFrom false (endsNumeral (shown b)) true ps

/-- Pieces that spell a text, each part by some characters. -/
inductive Spells (spelled : β → List Char → Prop) : List (Piece β) → List Char → Prop where
  | nil : Spells spelled [] []
  | plain {c : Char} {ps : List (Piece β)} {cs : List Char} (h : Spells spelled ps cs) :
      Spells spelled (.plain c :: ps) (c :: cs)
  | part {b : β} {here : List Char} {ps : List (Piece β)} {cs : List Char} (hb : spelled b here)
      (h : Spells spelled ps cs) : Spells spelled (.part b :: ps) (here ++ cs)

end Seams

/-! ### Tokens of a replaced text -/

theorem scan_of_head {c : Char} (hc : Token.isNumeral c = false) (cs : List Char) :
    Token.scan (c :: cs) = do
      let here ← Token.ofChar c
      let after ← Token.scan cs
      return here ++ after := by
  have hrun : Token.ofRun ([] : List Char).reverse = pure [] := rfl
  rw [Token.scan, Token.scanFrom, hc, if_neg Bool.false_ne_true, hrun, pure_bind]
  rfl

/-- A run of numerals is complete where no numeral follows. -/
theorem scanFrom_of_head {run cs : List Char} (h : ∀ c ∈ cs.head?, Token.isNumeral c = false) :
    Token.scanFrom run cs = do
      let before ← Token.ofRun run.reverse
      let after ← Token.scan cs
      return before ++ after := by
  cases cs with
  | nil =>
    rw [Token.scanFrom, pass_scan.nil]
    simp
  | cons c cs =>
    have hc := h c rfl
    rw [scan_of_head hc, Token.scanFrom, hc, if_neg Bool.false_ne_true]
    simp [Token.scan]

/-- A run of numerals is complete where a text follows that does not go on with it. -/
theorem scanFrom_append_of_apart {run here : List Char} (hne : here ≠ [])
    (h : run ≠ [] → startsNumeral here = false) (cs : List Char) :
    Token.scanFrom run (here ++ cs) = do
      let before ← Token.ofRun run.reverse
      let after ← Token.scan (here ++ cs)
      return before ++ after := by
  by_cases hnil : run = []
  · subst hnil
    have hrun : Token.ofRun ([] : List Char).reverse = pure [] := rfl
    rw [hrun, pure_bind, Token.scan]
    cases Token.scanFrom [] (here ++ cs) <;> rfl
  · refine scanFrom_of_head fun c hc => ?_
    rw [List.head?_append_of_ne_nil _ hne] at hc
    have hstarts := h hnil
    rw [startsNumeral, Option.mem_def.1 hc] at hstarts
    exact hstarts

theorem ofRun_numeral (n : Numeral) : Token.ofRun n.text = .ok [.number n.value] := by
  obtain ⟨c, cs, hcs⟩ := List.exists_cons_of_ne_nil n.filled
  have hreads := n.reads
  rw [hcs] at hreads ⊢
  rw [Token.ofRun, hreads]

/-- A numeral is one token where no numeral follows. -/
theorem scan_numeral_append (n : Numeral) {cs : List Char}
    (h : ∀ c ∈ cs.head?, Token.isNumeral c = false) :
    Token.scan (n.text ++ cs) = ([Token.number n.value] ++ ·) <$> Token.scan cs := by
  rw [Token.scan, scanFrom_append n.isNumeral, List.append_nil, scanFrom_of_head h,
    List.reverse_reverse, ofRun_numeral]
  cases Token.scan cs <;> rfl

/-- What is put in place is read as a factor, if no numeral follows its own.  Only one that begins
with a minus sign can be read where a factor has just been completed. -/
theorem Shown.tokens {cs : List Char} {e : Expr} (h : Shown cs e) :
    ∃ ts, Parses .factor ts e ∧
      (∀ rest, (endsNumeral cs = true → ∀ c ∈ rest.head?, Token.isNumeral c = false) →
        Token.scan (cs ++ rest) = (ts ++ ·) <$> Token.scan rest) ∧
      (cs.head? ≠ some '-' → ∀ term sum outer st, ts.foldlM State.step (.after term sum outer) ≠
        .ok st) := by
  cases h with
  | numeral n =>
    refine ⟨[.number n.value], parses_number _, fun rest hrest =>
      scan_numeral_append n (hrest n.endsNumeral_text), fun _ term sum outer st hsteps => ?_⟩
    cases outer <;> cases hsteps
  | negative n =>
    -- the parentheses are there for the sign, and what they enclose is an expression
    have hgroup : Parses .expression [.operator .sub, .number n.value] (.neg (.number n.value)) :=
      ⟨.neg (.number n.value), none, rfl, fun outer rest =>
        parses_minus (parses_number n.value) .start outer rest⟩
    refine ⟨[.opening, .operator .sub, .number n.value, .closing], parses_group hgroup,
      fun rest _ => ?_, fun _ term sum outer st hsteps => ?_⟩
    · have hclose : ∀ c ∈ (')' :: rest).head?, Token.isNumeral c = false := by
        rintro c ⟨⟩
        rfl
      rw [List.cons_append, List.cons_append, List.append_assoc, List.singleton_append,
        pass_scan.cons _ _ rfl, pass_scan.cons _ _ rfl, scan_numeral_append n hclose,
        pass_scan.cons _ _ rfl]
      simp only [Functor.map_map]
      rfl
    · cases outer <;> cases hsteps
  | minus n =>
    refine ⟨[.operator .sub, .number n.value], parses_minus (parses_number _), fun rest hrest => ?_,
      fun hhead => absurd rfl hhead⟩
    have hends : endsNumeral ('-' :: n.text) = true := by
      have hends := n.endsNumeral_text
      rw [endsNumeral] at hends ⊢
      rwa [List.getLast?_cons_of_ne_nil n.filled] 
    rw [List.cons_append, pass_scan.cons _ _ rfl, scan_numeral_append n (hrest hends)]
    simp only [Functor.map_map]
    rfl

/-! ### Reading a replaced text -/

section Run

variable {α : Type} {text : α → List Char} {leaf : α → Expr} {st st' final : State}
  {cs run : List Char} {ts us : List Token}

theorem foldlM_append_ok (h : (ts ++ us).foldlM State.step st = .ok final) :
    ∃ st', ts.foldlM State.step st = .ok st' ∧ us.foldlM State.step st' = .ok final := by
  rw [List.foldlM_append] at h
  exact exists_ok_of_bind_ok h

/-- Only a closing parenthesis is a symbol with which an operand ends. -/
theorem endsOperand_of_step {c : Char} {t : Token} {term : Expr} {sum : Pending}
    {outer : List Level} (hc : Token.symbol? c = some t)
    (hstep : State.step st t = .ok (.after term sum outer)) : endsOperand c = true := by
  unfold Token.symbol? at hc
  split at hc <;> cases hc
  -- no other symbol leads from either kind of state to the end of an operand
  case h_6 => rfl
  all_goals
    exfalso
    cases st with
    | before level outer => cases hstep
    | after term sum outer =>
      cases outer <;> (simp only [State.step, Operation.isAdditive] at hstep; cases hstep)

/-- A run of numerals is an operand, if there is a run. -/
theorem reading_numerals (hnumeral : ∀ n : Numeral, ∃ a, text a = n.text ∧ leaf a = .number n.value)
    (hrun : ∀ c ∈ run, Token.isNumeral c = true) (hts : Token.ofRun run.reverse = .ok ts)
    (hsteps : ts.foldlM State.step st = .ok st') (h : Reading text leaf st cs) :
    Reading text leaf st' (cs ++ run.reverse) ∧ (run = [] → st' = st) := by
  by_cases hnil : run = []
  · subst hnil
    cases hts
    cases hsteps
    exact ⟨by rwa [List.reverse_nil, List.append_nil], fun _ => rfl⟩
  · obtain ⟨c, ds, hds⟩ := List.exists_cons_of_ne_nil (List.reverse_ne_nil_iff.2 hnil)
    rw [hds, Token.ofRun] at hts
    cases hx : readNumber? (c :: ds) with
    | none => rw [hx] at hts; cases hts
    | some x =>
      rw [hx] at hts
      cases hts
      -- the run is a numeral, and a numeral is taken only where an operand is expected
      let n : Numeral := ⟨c :: ds, x, List.cons_ne_nil _ _,
        fun d hd => hrun d (List.mem_reverse.1 (hds ▸ hd)), hx⟩
      obtain ⟨a, ha, hleaf⟩ := hnumeral n
      cases st with
      | after term sum outer => cases outer <;> cases hsteps
      | before level outer =>
        cases hsteps
        have hoperand := h.operand (.operand a)
        rw [Phrase.expr, hleaf] at hoperand
        have htext : (Phrase.operand a).text text = run.reverse := hds ▸ ha
        rw [htext] at hoperand
        exact ⟨hoperand, fun hrun => absurd hrun hnil⟩

variable {β : Type} {shown : β → List Char} {spelled : β → List Char → Prop}

theorem head?_shownText {ps : List (Piece β)} {w : List Char} (h : Spells spelled ps w)
    (hparts : ∀ b here, spelled b here → ∃ a : α, text a = here ∧ Shown (shown b) (leaf a))
    {typed ended : Bool} (hjoins : joinsFrom shown typed true ended ps = false) :
    ∀ c ∈ (shownText shown ps).head?, Token.isNumeral c = false := by
  intro c hc
  cases h with
  | nil => cases hc
  | plain h =>
    cases hc
    rw [joinsFrom, Bool.or_eq_false_iff] at hjoins
    exact hjoins.1
  | part hb h =>
    rename_i b here ps w
    obtain ⟨a, -, hshown⟩ := hparts b here hb
    rw [shownText, List.head?_append_of_ne_nil _ hshown.ne_nil] at hc
    rw [joinsFrom, Bool.or_true, Bool.true_and, Bool.or_eq_false_iff, Bool.or_eq_false_iff,
      startsNumeral] at hjoins
    have hhead := hjoins.1.1
    rw [Option.mem_def.1 hc] at hhead
    exact hhead

/-- Where the reading of a replaced text stands: behind `cs`, the numerals `run`, last first, have
been read but not taken yet. -/
structure Stage (text : α → List Char) (leaf : α → Expr) (typed ended : Bool) (run : List Char)
    (st : State) (cs : List Char) : Prop where
  numerals : ∀ c ∈ run, Token.isNumeral c = true
  typed : run ≠ [] → typed = true
  ended : (run ≠ [] ∨ ∃ term sum outer, st = .after term sum outer) → ended = true
  reading : Reading text leaf st cs

variable {typed put ended : Bool}

theorem Stage.of_reading (h : Reading text leaf st cs)
    (hended : (∃ term sum outer, st = .after term sum outer) → ended = true) :
    Stage text leaf typed ended [] st cs where
  numerals := fun _ hc => (List.not_mem_nil hc).elim
  typed hne := absurd rfl hne
  ended hst := hended (hst.resolve_left fun hne => hne rfl)
  reading := h

/-- What has been read is taken. -/
theorem Stage.take (hnumeral : ∀ n : Numeral, ∃ a, text a = n.text ∧ leaf a = .number n.value)
    (h : Stage text leaf typed ended run st cs) (hts : Token.ofRun run.reverse = .ok ts)
    (hsteps : ts.foldlM State.step st = .ok st') :
    Reading text leaf st' (cs ++ run.reverse) ∧
      ((∃ term sum outer, st' = .after term sum outer) → ended = true) := by
  obtain ⟨hreading, hsame⟩ := reading_numerals hnumeral h.numerals hts hsteps h.reading
  refine ⟨hreading, fun hst => ?_⟩
  by_cases hnil : run = []
  · exact h.ended (.inr (hsame hnil ▸ hst))
  · exact h.ended (.inl hnil)

/-- A numeral joins the run. -/
theorem Stage.numeral (h : Stage text leaf typed ended run st cs) {c : Char}
    (hc : Token.isNumeral c = true) :
    Stage text leaf (Token.isNumeral c) (if Text.isBlank c then ended else endsOperand c) (c :: run)
      st cs where
  numerals := List.forall_mem_cons.2 ⟨hc, h.numerals⟩
  typed _ := hc
  ended _ := by
    have hblank : Text.isBlank c = false := by
      by_contra hblank
      rw [isNumeral_of_isMark (isMark_of_isBlank (Bool.eq_true_of_not_eq_false hblank))] at hc
      cases hc
    rw [hblank, endsOperand, hc]
    rfl
  reading := h.reading

/-- A blank or a symbol is taken. -/
theorem Stage.char (hst : (∃ term sum outer, st = .after term sum outer) → ended = true) {c : Char}
    (h : Reading text leaf st cs) (hts : Token.ofChar c = .ok ts)
    (hsteps : ts.foldlM State.step st = .ok st') :
    Stage text leaf typed (if Text.isBlank c then ended else endsOperand c) [] st' (cs ++ [c]) := by
  rw [Token.ofChar] at hts
  by_cases hblank : Text.isBlank c = true
  · rw [if_pos hblank] at hts ⊢
    cases hts
    cases hsteps
    exact .of_reading (h.blank hblank) hst
  · rw [if_neg hblank] at hts ⊢
    cases hsymbol : Token.symbol? c with
    | none => rw [hsymbol] at hts; cases hts
    | some t =>
      rw [hsymbol] at hts
      cases hts
      rw [List.foldlM_cons] at hsteps
      obtain ⟨st₁, hstep, hst₁⟩ := exists_ok_of_bind_ok hsteps
      cases hst₁
      -- of the symbols only a closing parenthesis completes an operand
      refine .of_reading (h.symbol hsymbol hstep) ?_
      rintro ⟨term, sum, outer, rfl⟩
      exact endsOperand_of_step hsymbol hstep

/-- A part is taken as an operand where one is expected; where one has been completed, only a sign
could go on, and it would join that operand. -/
theorem Stage.part {b : β} {a : α} (hshown : Shown (shown b) (leaf a))
    (hsign : (ended && (shown b).head? == some '-') = false)
    (hst : (∃ term sum outer, st = .after term sum outer) → ended = true)
    (h : Reading text leaf st cs) :
    ∃ us, (∀ rest, (endsNumeral (shown b) = true → ∀ c ∈ rest.head?, Token.isNumeral c = false) →
        Token.scan (shown b ++ rest) = (us ++ ·) <$> Token.scan rest) ∧
      ∀ after, (us ++ after).foldlM State.step st = .ok final →
        ∃ st', after.foldlM State.step st' = .ok final ∧
          Stage text leaf false true [] st' (cs ++ text a) := by
  obtain ⟨us, hparses, hus, hminus⟩ := hshown.tokens
  refine ⟨us, hus, fun after hsteps => ?_⟩
  cases st with
  | after term sum outer =>
    -- behind an operand only what begins with a sign could be read
    have hhead : (shown b).head? ≠ some '-' := by
      rw [hst ⟨_, _, _, rfl⟩, Bool.true_and, beq_eq_false_iff_ne] at hsign
      exact hsign
    obtain ⟨st₁, hst₁, -⟩ := foldlM_append_ok hsteps
    exact absurd hst₁ (hminus hhead term sum outer st₁)
  | before level outer =>
    rw [hparses] at hsteps
    exact ⟨_, hsteps, .of_reading (h.operand (.operand a)) fun _ => rfl⟩

/-- If no part joins its neighbours, a replaced text that the parser reads leads to a text of the
formula itself. -/
theorem reading_shownText
    (hnumeral : ∀ n : Numeral, ∃ a, text a = n.text ∧ leaf a = .number n.value)
    (hparts : ∀ b here, spelled b here → ∃ a : α, text a = here ∧ Shown (shown b) (leaf a))
    {ps : List (Piece β)} {w : List Char} (hspells : Spells spelled ps w)
    (h : Stage text leaf typed ended run st cs)
    (hjoins : joinsFrom shown typed put ended ps = false)
    (hscan : Token.scanFrom run (shownText shown ps) = .ok ts)
    (hsteps : ts.foldlM State.step st = .ok final) :
    Reading text leaf final (cs ++ (run.reverse ++ w)) := by
  -- induction on the pieces; the stage says what has been read, typed or put in place before them
  induction hspells generalizing run st cs ts typed put ended with
  | nil =>
    rw [List.append_nil]
    exact (h.take hnumeral hscan hsteps).1
  | @plain c ps w hspells ih =>
    rw [joinsFrom, Bool.or_eq_false_iff] at hjoins
    rw [shownText] at hscan
    -- a numeral goes on with the run that is open, any other character ends it
    by_cases hc : Token.isNumeral c = true
    · rw [Token.scanFrom, if_pos hc] at hscan
      have hnext := ih (h.numeral hc) hjoins.2 hscan hsteps
      rwa [List.reverse_cons, List.append_assoc, List.singleton_append] at hnext
    · rw [Bool.not_eq_true] at hc
      have hhead : ∀ d ∈ (c :: shownText shown ps).head?, Token.isNumeral d = false := by
        rintro d ⟨⟩
        exact hc
      rw [scanFrom_of_head hhead, scan_of_head hc] at hscan
      -- the tokens of the run, of the character and of the rest are taken one after the other
      obtain ⟨before, hbefore, hscan⟩ := exists_ok_of_bind_ok hscan
      obtain ⟨both, hboth, hscan⟩ := exists_ok_of_bind_ok hscan
      obtain ⟨here, hhere, hboth⟩ := exists_ok_of_bind_ok hboth
      obtain ⟨after, hafter, hboth⟩ := exists_ok_of_bind_ok hboth
      cases hboth
      cases hscan
      obtain ⟨st₁, hst₁, hsteps⟩ := foldlM_append_ok hsteps
      obtain ⟨st₂, hst₂, hsteps⟩ := foldlM_append_ok hsteps
      obtain ⟨hreading, hended⟩ := h.take hnumeral hbefore hst₁
      have hnext := ih (Stage.char hended hreading hhere hst₂) hjoins.2 hafter hsteps
      simpa only [List.reverse_nil, List.nil_append, List.append_assoc, List.singleton_append]
        using hnext
  | @part b here ps w hb hspells ih =>
    obtain ⟨a, ha, hshown⟩ := hparts b here hb
    rw [joinsFrom, Bool.or_eq_false_iff, Bool.or_eq_false_iff] at hjoins
    obtain ⟨⟨hfuse, hsign⟩, hjoins⟩ := hjoins
    -- nothing joins the part: neither the run before it nor a numeral behind it
    have hapart : run ≠ [] → startsNumeral (shown b) = false := fun hnil => by
      rwa [h.typed hnil, Bool.true_or, Bool.true_and] at hfuse
    have hrest : endsNumeral (shown b) = true →
        ∀ c ∈ (shownText shown ps).head?, Token.isNumeral c = false := by
      intro hends
      rw [hends] at hjoins
      exact head?_shownText hspells hparts hjoins
    rw [shownText, scanFrom_append_of_apart hshown.ne_nil hapart] at hscan
    obtain ⟨before, hbefore, hscan⟩ := exists_ok_of_bind_ok hscan
    obtain ⟨both, hboth, hscan⟩ := exists_ok_of_bind_ok hscan
    cases hscan
    obtain ⟨st₁, hst₁, hsteps⟩ := foldlM_append_ok hsteps
    obtain ⟨hreading, hended⟩ := h.take hnumeral hbefore hst₁
    obtain ⟨us, hus, hpart⟩ := Stage.part hshown hsign hended hreading
    rw [hus _ hrest] at hboth
    obtain ⟨after, hafter, hboth⟩ := exists_ok_of_map_ok hboth
    cases hboth
    obtain ⟨st₂, hsteps, hstage⟩ := hpart after hsteps
    have hnext := ih hstage hjoins hafter hsteps
    simpa only [List.reverse_nil, List.nil_append, List.append_assoc, ha] using hnext

/-- If no part joins its neighbours and the replaced text is read as a tree, the formula is a phrase
with that tree. -/
theorem exists_phrase_of_parse
    (hnumeral : ∀ n : Numeral, ∃ a, text a = n.text ∧ leaf a = .number n.value)
    (hparts : ∀ b here, spelled b here → ∃ a : α, text a = here ∧ Shown (shown b) (leaf a))
    {ps : List (Piece β)} {w : List Char} (hspells : Spells spelled ps w)
    (hjoins : joinsFrom shown false false false ps = false) {e : Expr}
    (hparse : parse (shownText shown ps) = .ok e) :
    ∃ s : Phrase α .expression, s.text text = w ∧ s.expr leaf = e := by
  obtain ⟨ts, hscan, hparse⟩ := exists_ok_of_bind_ok hparse
  rw [parseTokens] at hparse
  split at hparse
  · cases hparse
  · obtain ⟨final, hsteps, hfinish⟩ := exists_ok_of_bind_ok hparse
    have hstart : Stage text leaf false false [] .start [] := by
      refine .of_reading reading_start ?_
      rintro ⟨term, sum, outer, hst⟩
      cases hst
    have hreading := reading_shownText hnumeral hparts hspells hstart hjoins hscan hsteps
    exact hreading.finish hfinish

end Run

/-! ### Phrases have no seams -/

section Phrase

variable {α β : Type} {shown : β → List Char} {typed put ended : Bool} {ps : List (Piece β)}

/-- Pieces that begin with a mark. -/
def ClosedPieces (ps : List (Piece β)) : Prop := ∀ p ∈ ps.head?, ∃ c, isMark c = true ∧ p = .plain c

theorem closedPieces_cons {c : Char} (h : isMark c = true) (ps : List (Piece β)) :
    ClosedPieces (.plain c :: ps) := by
  rintro p ⟨⟩
  exact ⟨c, h, rfl⟩

theorem joinsFrom_mark {c : Char} (h : isMark c = true) (ps : List (Piece β)) :
    joinsFrom shown typed put ended (.plain c :: ps) =
      joinsFrom shown false false (if Text.isBlank c then ended else endsOperand c) ps := by
  rw [joinsFrom, isNumeral_of_isMark h, Bool.and_false, Bool.false_or]

/-- What stands before a mark joins nothing. -/
theorem joinsFrom_closed (h : ClosedPieces ps) :
    joinsFrom shown typed put ended ps = joinsFrom shown false false ended ps := by
  cases ps with
  | nil => rfl
  | cons p ps =>
    obtain ⟨c, hc, rfl⟩ := h p rfl
    rw [joinsFrom_mark hc, joinsFrom_mark hc]

theorem joinsFrom_blanks (b : Blanks) (ps : List (Piece β)) :
    joinsFrom shown false false ended ((b.1.flatMap fun c => [.plain c]) ++ ps) =
      joinsFrom shown false false ended ps := by
  obtain ⟨cs, hcs⟩ := b
  induction cs with
  | nil => rfl
  | cons c cs ih =>
    obtain ⟨hc, hcs⟩ := List.forall_mem_cons.1 hcs
    rw [List.flatMap_cons, List.append_assoc, List.singleton_append,
      joinsFrom_mark (isMark_of_isBlank hc), if_pos hc]
    exact ih hcs

theorem closedPieces_blanks (b : Blanks) (h : ClosedPieces ps) :
    ClosedPieces ((b.1.flatMap fun c => [.plain c]) ++ ps) := by
  obtain ⟨cs, hcs⟩ := b
  cases cs with
  | nil => exact h
  | cons c cs => exact closedPieces_cons (isMark_of_isBlank (hcs c List.mem_cons_self)) _

theorem joinsFrom_numerals {cs : List Char} (hcs : ∀ c ∈ cs, Token.isNumeral c = true)
    (hne : cs ≠ []) (h : ClosedPieces ps) :
    joinsFrom shown typed false ended (cs.map .plain ++ ps) =
      joinsFrom shown false false true ps := by
  induction cs generalizing typed ended with
  | nil => exact absurd rfl hne
  | cons c cs ih =>
    obtain ⟨hc, hcs⟩ := List.forall_mem_cons.1 hcs
    have hblank : ¬ Text.isBlank c = true := fun hblank => by
      rw [isNumeral_of_isMark (isMark_of_isBlank hblank)] at hc
      cases hc
    rw [List.map_cons, List.cons_append, joinsFrom, Bool.false_and, Bool.false_or, if_neg hblank,
      endsOperand, hc, Bool.true_or]
    by_cases hnil : cs = []
    · subst hnil
      exact joinsFrom_closed h
    · exact ih hcs hnil

/-- Numerals, or one part. -/
def IsOperand (ps : List (Piece β)) : Prop :=
  (∃ n : Numeral, ps = n.text.map .plain) ∨ ∃ b, ps = [.part b]

theorem joinsFrom_operand {here : List (Piece β)} (hhere : IsOperand here) (h : ClosedPieces ps) :
    joinsFrom shown false false false (here ++ ps) = joinsFrom shown false false true ps := by
  rcases hhere with ⟨n, rfl⟩ | ⟨b, rfl⟩
  · exact joinsFrom_numerals n.isNumeral n.filled h
  · rw [List.singleton_append, joinsFrom]
    simpa using joinsFrom_closed h

/-- In a phrase no operand joins its neighbours. -/
theorem joinsFrom_phrase {spell : α → List (Piece β)} {c : Category} (s : Phrase α c)
    (hspell : ∀ a ∈ s.operands, IsOperand (spell a)) (h : ClosedPieces ps) :
    joinsFrom shown false false false (s.render (fun c => [.plain c]) spell ++ ps) =
      joinsFrom shown false false true ps := by
  -- the sign of an operation is no blank and ends no operand
  have hends : ∀ op : Operation,
      Text.isBlank op.symbol = false ∧ endsOperand op.symbol = false := by
    intro op
    cases op <;> decide
  induction s generalizing ps with
  | operand a => exact joinsFrom_operand (hspell a List.mem_cons_self) h
  | group s ih =>
    rw [Phrase.render, List.append_assoc, List.append_assoc, List.singleton_append,
      joinsFrom_mark (c := '(') rfl, List.singleton_append]
    refine (ih hspell (closedPieces_cons (c := ')') rfl ps)).trans ?_
    rw [joinsFrom_mark (c := ')') rfl]
    rfl
  | plus s ih =>
    rw [Phrase.render, List.append_assoc, List.singleton_append, joinsFrom_mark (c := '+') rfl]
    exact ih hspell h
  | minus s ih =>
    rw [Phrase.render, List.append_assoc, List.singleton_append, joinsFrom_mark (c := '-') rfl]
    exact ih hspell h
  | single s ih => exact ih hspell h
  | product op hop l r ihl ihr =>
    obtain ⟨hl, hr⟩ := List.forall_mem_append.1 hspell
    have hmark := isMark_symbol op
    rw [Phrase.render, List.append_assoc, List.append_assoc, List.singleton_append,
      ihl hl (closedPieces_cons hmark _), joinsFrom_mark hmark, (hends op).1, (hends op).2]
    exact ihr hr h
  | alone s ih => exact ih hspell h
  | sum op hop l r ihl ihr =>
    obtain ⟨hl, hr⟩ := List.forall_mem_append.1 hspell
    have hmark := isMark_symbol op
    rw [Phrase.render, List.append_assoc, List.append_assoc, List.singleton_append,
      ihl hl (closedPieces_cons hmark _), joinsFrom_mark hmark, (hends op).1, (hends op).2]
    exact ihr hr h
  | spaced before s after ih =>
    rw [Phrase.render, List.append_assoc, List.append_assoc, joinsFrom_blanks,
      ih hspell (closedPieces_blanks after h), joinsFrom_blanks]

end Phrase

end Formula

end Spreadsheet
