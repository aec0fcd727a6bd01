import Spreadsheet.Proofs.Formula.Seams
import Spreadsheet.Proofs.Number.ReadBack

/-!
# Spreadsheet.Proofs.Arithmetic.Grammar — the parser accepts the grammar and nothing else

An expression is a term or an expression, `+` or `-` and a term; a term is a factor or a term, `*`
or `/` and a factor; a factor is a sign and a factor, a number, or an expression in parentheses.  A
number is digits, which a point and more digits may follow, or a point and digits.  Blanks may stand
around all of these, but not inside a number.  The parser takes runs of digits and points for
numbers as a whole; it finds the tree of every text of the grammar, and every text of which it finds
a tree is one.
-/

namespace Spreadsheet

namespace Arithmetic

/-! ### Numbers -/

/-- A run of digits. -/
abbrev Digits := { ds : List Char // ∀ d ∈ ds, d.isDigit = true }

/-- The numbers of the grammar. -/
inductive Literal where
  | whole (ds : Digits) (h : ds.1 ≠ [])
  | pointed (ds : Digits) (h : ds.1 ≠ []) (places : Digits)
  | fraction (places : Digits) (h : places.1 ≠ [])

namespace Literal

/-- The characters of a number. -/
def text : Literal → List Char
  | whole ds _ => ds.1
  | pointed ds _ places => ds.1 ++ '.' :: places.1
  | fraction places _ => '.' :: places.1

/-- The decimal that is written. -/
def decimal : Literal → Decimal
  | whole ds _ => ⟨Nat.ofDigitChars 10 ds.1 0, 0⟩
  | pointed ds _ places => ⟨Nat.ofDigitChars 10 (ds.1 ++ places.1) 0, 0 - places.1.length⟩
  | fraction places _ => ⟨Nat.ofDigitChars 10 places.1 0, 0 - places.1.length⟩

/-- The double nearest to it. -/
def value (l : Literal) : Float := Binary64.ofMagnitude false l.decimal.magnitude

/-- The tree of a number alone. -/
def leaf (l : Literal) : Expr := .number l.value

theorem parse?_text (l : Literal) : Decimal.parse? l.text = some l.decimal := by
  cases l with
  | whole ds h => exact Decimal.parse?_of_digits h ds.2
  | pointed ds h places =>
    exact Decimal.parse?_of_point (List.append_ne_nil_of_left_ne_nil h _) ds.2 places.2
  | fraction places h =>
    exact @Decimal.parse?_of_point [] places.1 h (fun d hd => absurd hd List.not_mem_nil) places.2

theorem text_ne_nil (l : Literal) : l.text ≠ [] := by
  cases l with
  | whole ds h => exact h
  | pointed ds h places => exact List.append_ne_nil_of_left_ne_nil h _
  | fraction places h => exact List.cons_ne_nil _ _

theorem isNumeral_of_mem_text {l : Literal} {c : Char} (h : c ∈ l.text) :
    Token.isNumeral c = true := by
  have hdigits (ds : Digits) (hc : c ∈ ds.1) : Token.isNumeral c = true := by
    rw [Token.isNumeral, ds.2 c hc, Bool.true_or]
  have hpoint (places : Digits) (hc : c ∈ '.' :: places.1) : Token.isNumeral c = true := by
    rcases List.mem_cons.1 hc with rfl | hc
    · rfl
    · exact hdigits places hc
  cases l with
  | whole ds _ => exact hdigits ds h
  | pointed ds _ places => exact (List.mem_append.1 h).elim (hdigits ds) (hpoint places)
  | fraction places _ => exact hpoint places h

/-- Behind the first digits of a run of digits and points there is a point or nothing. -/
theorem dropWhile_isDigit_cases {cs : List Char} (h : ∀ c ∈ cs, Token.isNumeral c = true) :
    cs.dropWhile Char.isDigit = [] ∨ ∃ rest, cs.dropWhile Char.isDigit = '.' :: rest := by
  cases hrest : cs.dropWhile Char.isDigit with
  | nil => exact .inl rfl
  | cons c rest =>
    have hdigit : c.isDigit = false := by
      have hhead := List.head?_dropWhile_not Char.isDigit cs
      rw [hrest] at hhead
      simpa using hhead
    have hc := h c ((List.dropWhile_sublist _).subset (hrest ▸ List.mem_cons_self))
    rw [Token.isNumeral, hdigit, Bool.false_or, beq_iff_eq] at hc
    exact .inr ⟨rest, by rw [hc]⟩

/-- A run of digits and points that reads as a decimal is a number of the grammar. -/
theorem exists_of_parse? {cs : List Char} {d : Decimal} (h : ∀ c ∈ cs, Token.isNumeral c = true)
    (hd : Decimal.parse? cs = some d) : ∃ l : Literal, l.text = cs ∧ l.decimal = d := by
  let whole : Digits := ⟨cs.takeWhile Char.isDigit, fun c hc => List.mem_takeWhile_imp hc⟩
  have hcs : whole.1 ++ cs.dropWhile Char.isDigit = cs := List.takeWhile_append_dropWhile
  rw [Decimal.parse?] at hd
  -- behind the first digits the run ends or goes on with a point
  rcases dropWhile_isDigit_cases h with hrest | ⟨rest, hrest⟩
  · simp only [hrest, List.isEmpty_nil, Bool.and_true, List.append_nil, Decimal.suffixExponent?,
      Option.map_some, Option.ite_none_left_eq_some, Option.some.injEq] at hd
    obtain ⟨hne, rfl⟩ := hd
    rw [hrest, List.append_nil] at hcs
    exact ⟨.whole whole fun hnil => hne (List.isEmpty_iff.2 hnil), hcs, rfl⟩
  · let places : Digits := ⟨rest.takeWhile Char.isDigit, fun c hc => List.mem_takeWhile_imp hc⟩
    have hnumerals : ∀ c ∈ rest, Token.isNumeral c = true := fun c hc =>
      h c (hcs ▸ List.mem_append_right _ (hrest ▸ List.mem_cons_of_mem _ hc))
    -- and behind the places it ends, since a second point is not read
    rcases dropWhile_isDigit_cases hnumerals with hend | ⟨more, hmore⟩
    · simp only [hrest, hend, Decimal.suffixExponent?, Option.map_some,
        Option.ite_none_left_eq_some, Option.some.injEq] at hd
      obtain ⟨hne, rfl⟩ := hd
      have hrun : places.1 = rest := by
        rw [← List.takeWhile_append_dropWhile (p := Char.isDigit) (l := rest), hend,
          List.append_nil]
      rw [hrest, ← hrun] at hcs
      -- digits on one side of the point are enough
      by_cases hwhole : whole.1 = []
      · have hplaces : places.1 ≠ [] := fun hnil => hne <| by
          rw [Bool.and_eq_true, List.isEmpty_iff, List.isEmpty_iff]
          exact ⟨hwhole, hnil⟩
        refine ⟨.fraction places hplaces, by rw [← hcs, hwhole]; rfl, ?_⟩
        show Decimal.mk (Nat.ofDigitChars 10 places.1 0) _ =
          ⟨Nat.ofDigitChars 10 (whole.1 ++ places.1) 0, _⟩
        rw [hwhole, List.nil_append]
      · exact ⟨.pointed whole hwhole places, hcs, rfl⟩
    · simp [hrest, hmore, Decimal.suffixExponent?] at hd

/-- A number of the grammar is one token. -/
theorem scan_append (l : Literal) {cs : List Char} (hcs : Closed cs) :
    Token.scan (l.text ++ cs) = ([Token.number l.value] ++ ·) <$> Token.scan cs := by
  have hread : readNumber? l.text = some l.value := by
    rw [readNumber?_of_isNumeral fun c hc => isNumeral_of_mem_text hc, parse?_text]
    rfl
  exact scan_numeral l.text_ne_nil (fun c hc => isNumeral_of_mem_text hc) hread hcs

/-- A run of digits and points that reads as a number is one of the grammar. -/
theorem exists_of_numeral (n : Formula.Numeral) :
    ∃ l : Literal, l.text = n.text ∧ l.leaf = .number n.value := by
  have hread := n.reads
  rw [readNumber?_of_isNumeral n.isNumeral] at hread
  obtain ⟨d, hd, hvalue⟩ := Option.map_eq_some_iff.1 hread
  obtain ⟨l, htext, rfl⟩ := exists_of_parse? n.isNumeral hd
  exact ⟨l, htext, congrArg Expr.number hvalue⟩

end Literal

/-! ### Expressions -/

/-- Whether a text is an expression with this tree. -/
def Derives (cs : List Char) (e : Expr) : Prop :=
  ∃ s : Phrase Literal .expression, s.text Literal.text = cs ∧ s.expr Literal.leaf = e

theorem Derives.parse_eq {cs : List Char} {e : Expr} (h : Derives cs e) : parse cs = .ok e := by
  obtain ⟨s, rfl, rfl⟩ := h
  have hscan := pass_scan.rewrites Literal.text (fun l => [.number l.value]) s
    (fun l _ cs hcs => l.scan_append hcs) closed_nil
  rw [List.append_nil, pass_scan.nil, map_pure, List.append_nil] at hscan
  rw [parse, hscan, pure_bind]
  exact parseTokens_of_parses (parses_phrase s fun l _ => parses_number _)

section Plain

variable {β : Type} (shown : β → List Char) {spelled : β → List Char → Prop}

theorem shownText_plain (cs : List Char) : Formula.shownText shown (cs.map .plain) = cs := by
  induction cs with
  | nil => rfl
  | cons c cs ih => rw [List.map_cons, Formula.shownText, ih]

theorem spells_plain (cs : List Char) : Formula.Spells spelled (cs.map .plain) cs := by
  induction cs with
  | nil => exact .nil
  | cons c cs ih => exact .plain ih

/-- Where nothing is replaced, nothing joins its neighbours. -/
theorem joinsFrom_plain (cs : List Char) (typed ended : Bool) :
    Formula.joinsFrom shown typed false ended (cs.map .plain) = false := by
  induction cs generalizing typed ended with
  | nil => rfl
  | cons c cs ih =>
    rw [List.map_cons, Formula.joinsFrom, Bool.false_and, Bool.false_or]
    exact ih _ _

end Plain

theorem derives_of_parse {cs : List Char} {e : Expr} (h : parse cs = .ok e) : Derives cs e := by
  have hspells : Formula.Spells (fun (b : Empty) _ => b.elim) (cs.map .plain) cs := spells_plain cs
  have hjoins := joinsFrom_plain Empty.elim cs false false
  rw [← shownText_plain Empty.elim cs] at h
  exact Formula.exists_phrase_of_parse Literal.exists_of_numeral (fun b => b.elim) hspells hjoins h

/-! ### Texts without a tree -/

theorem ofRun_eq_ok_nil_iff {run : List Char} : Token.ofRun run = .ok [] ↔ run = [] := by
  cases run with
  | nil => exact iff_of_true rfl rfl
  | cons c cs =>
    rw [Token.ofRun]
    cases readNumber? (c :: cs) <;> simp

theorem isBlank_of_ofChar {c : Char} (h : Token.ofChar c = .ok []) : Text.isBlank c = true := by
  by_contra hblank
  rw [Token.ofChar, if_neg hblank] at h
  cases hsymbol : Token.symbol? c <;> rw [hsymbol] at h <;> cases h

/-- Only blanks have no tokens. -/
theorem isBlank_of_scanFrom {run cs : List Char} (h : Token.scanFrom run cs = .ok []) :
    run = [] ∧ ∀ c ∈ cs, Text.isBlank c = true := by
  induction cs generalizing run with
  | nil => exact ⟨List.reverse_eq_nil_iff.1 (ofRun_eq_ok_nil_iff.1 h), by simp⟩
  | cons c cs ih =>
    rw [Token.scanFrom] at h
    split at h
    · exact absurd (ih h).1 (List.cons_ne_nil _ _)
    · obtain ⟨before, hbefore, h⟩ := exists_ok_of_bind_ok h
      obtain ⟨here, hhere, h⟩ := exists_ok_of_bind_ok h
      obtain ⟨after, hafter, h⟩ := exists_ok_of_bind_ok h
      have hnil : before ++ here ++ after = [] := Except.ok.inj h
      obtain ⟨hfront, rfl⟩ := List.append_eq_nil_iff.1 hnil
      have hparts := List.append_eq_nil_iff.1 hfront
      rw [hparts.1] at hbefore
      rw [hparts.2] at hhere
      exact ⟨List.reverse_eq_nil_iff.1 (ofRun_eq_ok_nil_iff.1 hbefore),
        List.forall_mem_cons.2 ⟨isBlank_of_ofChar hhere, (ih hafter).2⟩⟩

theorem scan_blanks {cs : List Char} (h : ∀ c ∈ cs, Text.isBlank c = true) :
    Token.scan cs = .ok [] := by
  have hscan := pass_scan.blanks ⟨cs, h⟩ []
  have htokens : cs.flatMap tokensOfMark = [] :=
    List.flatMap_eq_nil_iff.2 fun c hc => if_pos (h c hc)
  rw [List.append_nil, htokens, pass_scan.nil] at hscan
  exact hscan

/-- A computation that does not fail because there is nothing to read. -/
def NotEmpty {α : Type} (x : Except ArithmeticFault α) : Prop := x ≠ .error .empty

theorem notEmpty_ok {α : Type} (a : α) : NotEmpty (.ok a) := by
  rintro ⟨⟩

theorem NotEmpty.bind {α β : Type} {x : Except ArithmeticFault α}
    {k : α → Except ArithmeticFault β} (hx : NotEmpty x) (hk : ∀ a, NotEmpty (k a)) :
    NotEmpty (x >>= k) := by
  cases x with
  | ok a => exact hk a
  | error fault =>
    intro h
    cases h
    exact hx rfl

theorem notEmpty_ofRun (run : List Char) : NotEmpty (Token.ofRun run) := by
  cases run with
  | nil => exact notEmpty_ok []
  | cons c cs =>
    rw [Token.ofRun]
    cases readNumber? (c :: cs) with
    | some x => exact notEmpty_ok _
    | none => rintro ⟨⟩

theorem notEmpty_ofChar (c : Char) : NotEmpty (Token.ofChar c) := by
  rw [Token.ofChar]
  split
  · exact notEmpty_ok []
  · cases Token.symbol? c with
    | some t => exact notEmpty_ok [t]
    | none => rintro ⟨⟩

theorem notEmpty_scanFrom (run cs : List Char) : NotEmpty (Token.scanFrom run cs) := by
  induction cs generalizing run with
  | nil => exact notEmpty_ofRun _
  | cons c cs ih =>
    rw [Token.scanFrom]
    split
    · exact ih _
    · refine (notEmpty_ofRun _).bind fun before => (notEmpty_ofChar c).bind fun here => ?_
      exact (ih []).bind fun after => notEmpty_ok _

theorem notEmpty_unexpected {α : Type} (t : Option Token) :
    NotEmpty (.error (unexpected t) : Except ArithmeticFault α) := by
  cases t <;> rintro ⟨⟩

theorem notEmpty_step (st : State) (t : Token) : NotEmpty (st.step t) := by
  unfold State.step
  split
  case h_5 => split <;> exact notEmpty_ok _
  case h_7 => exact notEmpty_unexpected _
  all_goals exact notEmpty_ok _

theorem notEmpty_steps (ts : List Token) (st : State) : NotEmpty (ts.foldlM State.step st) := by
  induction ts generalizing st with
  | nil => exact notEmpty_ok st
  | cons t ts ih => exact (notEmpty_step st t).bind ih

theorem notEmpty_finish (st : State) : NotEmpty st.finish := by
  unfold State.finish
  split
  · exact notEmpty_ok _
  · exact notEmpty_unexpected none

/-- There is nothing to parse exactly in texts of blanks. -/
theorem parse_eq_empty_iff {cs : List Char} :
    parse cs = .error .empty ↔ ∀ c ∈ cs, Text.isBlank c = true := by
  constructor
  · intro h
    rw [parse] at h
    cases hscan : Token.scan cs with
    | error fault =>
      rw [hscan] at h
      cases h
      exact absurd hscan (notEmpty_scanFrom [] cs)
    | ok ts =>
      cases ts with
      | nil => exact (isBlank_of_scanFrom hscan).2
      | cons t ts =>
        rw [hscan] at h
        exact absurd h ((notEmpty_steps (t :: ts) .start).bind notEmpty_finish)
  · intro h
    rw [parse, scan_blanks h]
    rfl

/-! ### The grammar -/

/-- The parser finds a tree exactly for the texts that are expressions, and it is the only one that
they have.  Every other text has an error, which is that there is nothing to read exactly if all of
it is blank. -/
theorem parse_eq_ok_iff_derives :
    (∀ cs e, parse cs = .ok e ↔ Derives cs e) ∧
    (∀ cs e e', Derives cs e → Derives cs e' → e = e') ∧
    (∀ cs, (∃ fault, parse cs = .error fault) ↔ ¬ ∃ e, Derives cs e) ∧
    (∀ cs, parse cs = .error .empty ↔ ∀ c ∈ cs, Text.isBlank c = true) := by
  have hiff (cs : List Char) (e : Expr) : parse cs = .ok e ↔ Derives cs e :=
    ⟨derives_of_parse, Derives.parse_eq⟩
  refine ⟨hiff, fun cs e e' he he' => ?_, fun cs => ?_, fun cs => parse_eq_empty_iff⟩
  · exact Except.ok.inj (he.parse_eq.symm.trans he'.parse_eq)
  · cases h : parse cs with
    | ok e => simpa using ⟨e, (hiff cs e).1 h⟩
    | error fault =>
      refine iff_of_true ⟨fault, rfl⟩ ?_
      rintro ⟨e, he⟩
      rw [he.parse_eq] at h
      cases h

/-- Operators of one kind associate to the left, a sign binds its factor, and numbers may begin or
end with a point; two points make no number. -/
theorem parse_eq_ok_iff_derives_differences :
    Derives " 8-4 -.5*-+2.".toList (.binary .sub (.binary .sub (.number 8) (.number 4))
      (.binary .mul (.number 0.5) (.neg (.number 2)))) ∧
    (∀ e, Derives "8-(4-2)".toList e →
      e = .binary .sub (.number 8) (.binary .sub (.number 4) (.number 2))) ∧
    (¬ ∃ e, Derives "1.2.3".toList e) ∧ parse " \t\u3000".toList = .error .empty := by
  obtain ⟨htree, hunique, herror, hempty⟩ := parse_eq_ok_iff_derives
  have hgroup : Derives "8-(4-2)".toList
      (.binary .sub (.number 8) (.binary .sub (.number 4) (.number 2))) :=
    (htree _ _).1 (by decide +kernel)
  have hpoints : parse "1.2.3".toList = .error (.badNumeral "1.2.3") := by decide +kernel
  exact ⟨(htree _ _).1 (by decide +kernel), fun e he => hunique _ _ _ he hgroup,
    (herror _).1 ⟨_, hpoints⟩, (hempty _).2 (List.all_eq_true.1 rfl)⟩

end Arithmetic

end Spreadsheet
