import Mathlib.Data.List.Induction
import Spreadsheet.Proofs.Files.Importing
import Spreadsheet.Proofs.Interchange.Records

/-!
# Spreadsheet.Proofs.Interchange.LineNumbers — the line that is reported for a record out of step

A line of a text ends at a line feed, a carriage return or both.  The reader counts line feeds only,
and it notes the number when it begins to look for a record, directly behind the break that ends the
record before.  So the line that is reported is the one on which the record begins exactly if that
break is a line feed, no break is skipped behind it and no carriage return stands by itself before.
-/

namespace Spreadsheet

namespace Csv

/-! ### Lines of a text -/

/-- The number of lines that end in a text. -/
def lineEnds (cs : List Char) : Nat := (Interchange.unifyBreaks cs).countP isBreak

/-- Every carriage return has a line feed behind it. -/
def FedReturns (cs : List Char) : Prop :=
  ∀ before rest, cs = before ++ '\r' :: rest → rest.head? = some '\n'

theorem isBreak_iff {c : Char} : isBreak c = true ↔ c = '\n' ∨ c = '\r' := by
  rw [isBreak, Bool.or_eq_true, beq_iff_eq, beq_iff_eq]

theorem ne_of_not_isBreak {c : Char} (h : isBreak c = false) : c ≠ '\n' ∧ c ≠ '\r' := by
  rw [← not_or, ← isBreak_iff, h]
  exact Bool.false_ne_true

theorem lineEnds_cons {c : Char} (cs : List Char) (h : c = '\r' → cs.head? ≠ some '\n') :
    lineEnds (c :: cs) = lineEnds cs + if isBreak c = true then 1 else 0 := by
  have hunify : Interchange.unifyBreaks (c :: cs) = c :: Interchange.unifyBreaks cs := by
    rw [Interchange.unifyBreaks]
    rintro rest rfl rfl
    exact h rfl rfl
  rw [lineEnds, hunify, List.countP_cons, lineEnds]

theorem lineEnds_feed (cs : List Char) : lineEnds ('\n' :: cs) = lineEnds cs + 1 :=
  lineEnds_cons cs fun h => absurd h (by decide)

theorem lineEnds_return_feed (cs : List Char) :
    lineEnds ('\r' :: '\n' :: cs) = lineEnds ('\n' :: cs) := by
  rw [lineEnds_feed]
  exact List.countP_cons_of_pos rfl

theorem lineEnds_return {cs : List Char} (h : cs.head? ≠ some '\n') :
    lineEnds ('\r' :: cs) = lineEnds cs + 1 := lineEnds_cons cs fun _ => h

theorem lineEnds_plain {c : Char} (h : isBreak c = false) (cs : List Char) :
    lineEnds (c :: cs) = lineEnds cs := by
  rw [lineEnds_cons cs (by rintro rfl; cases h), h]
  rfl

theorem lineEnds_pos {c : Char} (h : isBreak c = true) (cs : List Char) :
    0 < lineEnds (c :: cs) := by
  rcases isBreak_iff.1 h with rfl | rfl
  · rw [lineEnds_feed]
    exact Nat.succ_pos _
  · by_cases hfeed : cs.head? = some '\n'
    · obtain ⟨rest, rfl⟩ := List.head?_eq_some_iff.1 hfeed
      rw [lineEnds_return_feed, lineEnds_feed]
      exact Nat.succ_pos _
    · rw [lineEnds_return hfeed]
      exact Nat.succ_pos _

theorem lineEnds_le_return (cs : List Char) : lineEnds cs ≤ lineEnds ('\r' :: cs) := by
  by_cases hfeed : cs.head? = some '\n'
  · obtain ⟨rest, rfl⟩ := List.head?_eq_some_iff.1 hfeed
    exact Nat.le_of_eq (lineEnds_return_feed rest).symm
  · rw [lineEnds_return hfeed]
    exact Nat.le_succ _

/-- Every line feed ends a line, whatever follows. -/
theorem count_add_lineEnds_le (cs rest : List Char) :
    cs.count '\n' + lineEnds rest ≤ lineEnds (cs ++ rest) := by
  induction cs with
  | nil => exact Nat.le_of_eq (Nat.zero_add _)
  | cons c cs ih =>
    rw [List.cons_append]
    cases hbreak : isBreak c with
    | true =>
      rcases isBreak_iff.1 hbreak with rfl | rfl
      · rw [lineEnds_feed, List.count_cons_self]
        omega
      · rw [List.count_cons_of_ne (by decide)]
        exact Nat.le_trans ih (lineEnds_le_return _)
    | false =>
      obtain ⟨hfeed, -⟩ := ne_of_not_isBreak hbreak
      rw [lineEnds_plain hbreak, List.count_cons_of_ne hfeed]
      exact ih

theorem fedReturns_cons_iff {c : Char} {cs : List Char} :
    FedReturns (c :: cs) ↔ (c = '\r' → cs.head? = some '\n') ∧ FedReturns cs := by
  constructor
  · refine fun h => ⟨?_, fun before rest hcs => h (c :: before) rest ?_⟩
    · rintro rfl
      exact h [] cs rfl
    · rw [hcs]
      rfl
  · rintro ⟨hc, hcs⟩ before rest hsplit
    cases before with
    | nil =>
      obtain ⟨rfl, rfl⟩ := List.cons.inj hsplit
      exact hc rfl
    | cons d before =>
      obtain ⟨rfl, htail⟩ := List.cons.inj hsplit
      exact hcs before rest htail

/-- Only line feeds end lines exactly if no carriage return stands by itself. -/
theorem lineEnds_eq_count_iff {cs : List Char} : lineEnds cs = cs.count '\n' ↔ FedReturns cs := by
  induction cs with
  | nil =>
    refine iff_of_true rfl fun before rest h => ?_
    cases before <;> cases h
  | cons c cs ih =>
    have hle := count_add_lineEnds_le cs []
    rw [List.append_nil] at hle
    rw [fedReturns_cons_iff]
    cases hbreak : isBreak c with
    | true =>
      rcases isBreak_iff.1 hbreak with rfl | rfl
      · rw [lineEnds_feed, List.count_cons_self, Nat.add_right_cancel_iff, ih]
        exact (and_iff_right fun h => absurd h (by decide)).symm
      · rw [List.count_cons_of_ne (by decide)]
        -- a carriage return with a line feed behind it ends no line of its own
        by_cases hfeed : cs.head? = some '\n'
        · obtain ⟨rest, rfl⟩ := List.head?_eq_some_iff.1 hfeed
          rw [lineEnds_return_feed, ih]
          exact (and_iff_right fun _ => rfl).symm
        · rw [lineEnds_return hfeed]
          exact iff_of_false (by omega) fun h => hfeed (h.1 rfl)
    | false =>
      obtain ⟨hfeed, hreturn⟩ := ne_of_not_isBreak hbreak
      rw [lineEnds_plain hbreak, List.count_cons_of_ne hfeed, ih]
      exact (and_iff_right fun h => absurd h hreturn).symm

/-- Behind a break, the line feeds count all lines exactly if no carriage return stands by itself and
no other break follows. -/
theorem lineEnds_append_eq_count_iff {body skipped : List Char} {c : Char} (hc : isBreak c = true)
    (hskipped : ∀ d ∈ skipped, isBreak d = true) :
    lineEnds (body ++ [c] ++ skipped) = (body ++ [c]).count '\n' ↔
      skipped = [] ∧ FedReturns (body ++ [c]) := by
  cases skipped with
  | nil =>
    rw [List.append_nil, lineEnds_eq_count_iff]
    exact (and_iff_right rfl).symm
  | cons d skipped =>
    refine iff_of_false (Nat.ne_of_gt ?_) fun h => List.cons_ne_nil d skipped h.1
    rcases isBreak_iff.1 hc with rfl | rfl
    · have hle := count_add_lineEnds_le (body ++ ['\n']) (d :: skipped)
      have hpos := lineEnds_pos (hskipped d List.mem_cons_self) skipped
      omega
    · -- the carriage return ends a line of its own
      have hle := count_add_lineEnds_le body ('\r' :: d :: skipped)
      have hpos := lineEnds_pos hc (d :: skipped)
      have hcount : (body ++ ['\r']).count '\n' = body.count '\n' := by
        rw [List.count_append]
        rfl
      rw [List.append_assoc, List.singleton_append]
      omega

theorem lineEnds_append_of_plain {marks : List Char} (h : ∀ c ∈ marks, isBreak c = false)
    (cs : List Char) : lineEnds (marks ++ cs) = lineEnds cs := by
  induction marks with
  | nil => rfl
  | cons c marks ih =>
    obtain ⟨hc, hmarks⟩ := List.forall_mem_cons.1 h
    rw [List.cons_append, lineEnds_plain hc, ih hmarks]

/-! ### Where the reader stands -/

/-- The reader behind a text. -/
def Reader.behind (r : Reader) (cs : List Char) : Reader := cs.foldl (fun r c => (step r c).2) r

/-- The line count behind a character. -/
def Reader.lineBehind (r : Reader) (c : Char) : Nat := if c = '\n' then r.line + 1 else r.line

theorem Reader.behind_concat (r : Reader) (cs : List Char) (c : Char) :
    r.behind (cs ++ [c]) = (step (r.behind cs) c).2 := by
  rw [behind, List.foldl_append]
  rfl

/-- The last character of a text ends a record. -/
def EndsRecord (cs : List Char) : Prop :=
  ∃ body c, cs = body ++ [c] ∧ (step (Reader.atStart.behind body) c).1.isSome = true

/-- A character is skipped between records, ends a record, or belongs to one. -/
theorem step_cases (r : Reader) (c : Char) :
    r.place = .recordStart ∧ isBreak c = true ∧ step r c = (none, { r with line := r.lineBehind c }) ∨
    r.place ≠ .recordStart ∧ isBreak c = true ∧
      step r c = (some r.record, .next (r.lineBehind c)) ∨
    (r.place = .recordStart → isBreak c = false) ∧ ∃ r', step r c = (none, r') ∧
      r'.place ≠ .recordStart ∧ r'.start = r.start ∧ r'.line = r.lineBehind c := by
  -- inside quotes a break is a character like any other
  have hquoted : r.place = .quoted → ∃ r', step r c = (none, r') ∧
      r'.place ≠ .recordStart ∧ r'.start = r.start ∧ r'.line = r.lineBehind c := by
    intro hplace
    by_cases hquote : c = '"'
    · subst hquote
      exact ⟨{ r with place := .quoteSeen }, by simp [step, hplace], by rintro ⟨⟩, rfl, rfl⟩
    · refine ⟨{ r.add .quoted c with line := r.lineBehind c }, ?_, by rintro ⟨⟩, rfl, rfl⟩
      simp [step, hplace, hquote, Reader.lineBehind]
  cases hbreak : isBreak c with
  | true =>
    have hquote : c ≠ '"' := by rintro rfl; cases hbreak
    have hcomma : c ≠ ',' := by rintro rfl; cases hbreak
    cases hplace : r.place with
    | recordStart =>
      refine .inl ⟨rfl, rfl, ?_⟩
      simp [step, hplace, hbreak, Reader.lineBehind]
    | quoted => exact .inr (.inr ⟨by rintro ⟨⟩, hquoted hplace⟩)
    | fieldStart | unquoted | quoteSeen =>
      refine .inr (.inl ⟨by rintro ⟨⟩, rfl, ?_⟩)
      simp [step, hplace, hbreak, hquote, hcomma, Reader.lineBehind]
  | false =>
    have hline : r.lineBehind c = r.line := if_neg (ne_of_not_isBreak hbreak).1
    refine .inr (.inr ⟨fun _ => rfl, ?_⟩)
    rw [hline]
    cases hplace : r.place with
    | quoted => exact hline ▸ hquoted hplace
    | recordStart | fieldStart | unquoted | quoteSeen =>
      -- the character is taken as it stands, or begins or ends a field
      unfold step
      simp only [hplace, hbreak, Bool.false_eq_true, if_false]
      split_ifs
      all_goals exact ⟨_, rfl, by rintro ⟨⟩, rfl, rfl⟩

theorem line_step (r : Reader) (c : Char) : (step r c).2.line = r.lineBehind c := by
  rcases step_cases r c with ⟨-, -, h⟩ | ⟨-, -, h⟩ | ⟨-, r', h, -, -, hline⟩
  · rw [h]
  · rw [h]
    rfl
  · rw [h]
    exact hline

/-- The reader counts line feeds. -/
theorem line_behind (cs : List Char) :
    (Reader.atStart.behind cs).line = cs.count '\n' + 1 := by
  induction cs using List.reverseRecOn with
  | nil => rfl
  | append_singleton cs c ih =>
    rw [Reader.behind_concat, line_step, Reader.lineBehind, ih, List.count_append]
    by_cases hc : c = '\n'
    · rw [if_pos hc, hc]
      rfl
    · rw [if_neg hc, List.count_singleton, if_neg fun h => hc (beq_iff_eq.1 h)]

/-- Between records the reader has noted the line behind the last record, and has skipped breaks
since. -/
theorem start_behind {cs : List Char} (h : (Reader.atStart.behind cs).place = .recordStart) :
    ∃ ended skipped, cs = ended ++ skipped ∧ (ended = [] ∨ EndsRecord ended) ∧
      (∀ c ∈ skipped, isBreak c = true) ∧
      (Reader.atStart.behind cs).start = ended.count '\n' + 1 := by
  induction cs using List.reverseRecOn with
  | nil => exact ⟨[], [], rfl, .inl rfl, List.forall_mem_nil _, rfl⟩
  | append_singleton cs c ih =>
    rw [Reader.behind_concat] at h ⊢
    -- the last character was skipped, or it has ended a record, or it would be part of one
    rcases step_cases (Reader.atStart.behind cs) c with
      ⟨hplace, hc, hstep⟩ | ⟨-, -, hstep⟩ | ⟨-, r', hstep, hplace, -, -⟩
    · obtain ⟨ended, skipped, rfl, hended, hskipped, hstart⟩ := ih hplace
      refine ⟨ended, skipped ++ [c], List.append_assoc .., hended, ?_, ?_⟩
      · exact List.forall_mem_append.2 ⟨hskipped, List.forall_mem_singleton.2 hc⟩
      · rw [hstep]
        exact hstart
    · refine ⟨cs ++ [c], [], (List.append_nil _).symm, .inr ⟨cs, c, rfl, ?_⟩,
        List.forall_mem_nil _, ?_⟩
      · rw [hstep]
        rfl
      · rw [← line_behind, Reader.behind_concat, hstep]
        rfl
    · rw [hstep] at h
      exact absurd h hplace

/-- The first record that ends bears the line that the reader has noted. -/
theorem line_of_readFrom {r : Reader} {cs : List Char} {first : Record} {others : List Record}
    (h : readFrom r cs = first :: others) (hplace : r.place ≠ .recordStart) :
    first.line = r.start := by
  induction cs generalizing r with
  | nil =>
    rw [readFrom, if_neg hplace] at h
    obtain ⟨rfl, -⟩ := List.cons.inj h
    rfl
  | cons c cs ih =>
    rcases step_cases r c with ⟨hstart, -, -⟩ | ⟨-, -, hstep⟩ | ⟨-, r', hstep, hplace', hstart, -⟩
    · exact absurd hstart hplace
    · rw [readFrom_record hstep] at h
      obtain ⟨rfl, -⟩ := List.cons.inj h
      rfl
    · rw [readFrom_step hstep] at h
      rw [ih h hplace', hstart]

theorem readFrom_breaks {r : Reader} {cs : List Char} (hplace : r.place = .recordStart)
    (h : ∀ c ∈ cs, isBreak c = true) : readFrom r cs = [] := by
  induction cs generalizing r with
  | nil => exact if_pos hplace
  | cons c cs ih =>
    obtain ⟨hc, hcs⟩ := List.forall_mem_cons.1 h
    rcases step_cases r c with ⟨-, -, hstep⟩ | ⟨hno, -, -⟩ | ⟨hno, -⟩
    · rw [readFrom_step hstep]
      exact ih hplace hcs
    · exact absurd hplace hno
    · rw [hno hplace] at hc
      cases hc

/-- In a text that is read from `r` on, a record that bears `line` begins behind the records
`earlier`, at a character that is no break. -/
def BeginsBehind (r : Reader) (cs : List Char) (earlier : List Record) (line : Nat) : Prop :=
  ∃ before c rest, cs = before ++ c :: rest ∧ isBreak c = false ∧ readFrom r before = earlier ∧
    (r.behind before).place = .recordStart ∧ (r.behind before).start = line

theorem BeginsBehind.cons {r r' : Reader} {c : Char} {cs : List Char} {record : Option Record}
    {earlier : List Record} {line : Nat} (hstep : step r c = (record, r'))
    (h : BeginsBehind r' cs earlier line) :
    BeginsBehind r (c :: cs) (record.toList ++ earlier) line := by
  obtain ⟨before, d, rest, rfl, hd, hread, hplace, hline⟩ := h
  have hbehind : r.behind (c :: before) = r'.behind before := by
    rw [Reader.behind, List.foldl_cons, hstep]
    rfl
  refine ⟨c :: before, d, rest, rfl, hd, ?_, ?_, ?_⟩
  · rw [readFrom, hstep, hread]
  · rw [hbehind]
    exact hplace
  · rw [hbehind]
    exact hline

/-- A record that is read begins behind the records before it. -/
theorem beginsBehind_of_readFrom {r : Reader} {cs : List Char} {earlier others : List Record}
    {odd : Record} (hbegins : earlier ≠ [] ∨ r.place = .recordStart)
    (h : readFrom r cs = earlier ++ odd :: others) : BeginsBehind r cs earlier odd.line := by
  induction cs generalizing r earlier with
  | nil =>
    rw [readFrom] at h
    split at h
    · cases earlier <;> cases h
    · rename_i hplace
      cases earlier with
      | nil => exact absurd (hbegins.resolve_left fun hne => hne rfl) hplace
      | cons first earlier =>
        obtain ⟨-, htail⟩ := List.cons.inj h
        cases earlier <;> cases htail
  | cons c cs ih =>
    -- a break is skipped, or it ends one of the earlier records; any other character is part of one
    rcases step_cases r c with ⟨hplace, -, hstep⟩ | ⟨hplace, -, hstep⟩ |
      ⟨hc, r', hstep, hplace, hstart, -⟩
    · rw [readFrom_step hstep] at h
      exact .cons hstep (ih (.inr hplace) h)
    · rw [readFrom_record hstep] at h
      cases earlier with
      | nil => exact absurd (hbegins.resolve_left fun hne => hne rfl) hplace
      | cons first earlier =>
        obtain ⟨rfl, hrest⟩ := List.cons.inj h
        exact .cons hstep (ih (.inr rfl) hrest)
    · rw [readFrom_step hstep] at h
      cases earlier with
      | cons first earlier => exact .cons hstep (ih (.inl (List.cons_ne_nil _ _)) h)
      | nil =>
        -- the record begins here
        have hbetween := hbegins.resolve_left fun hne => hne rfl
        refine ⟨[], c, cs, rfl, hc hbetween, if_pos hbetween, hbetween, ?_⟩
        exact hstart.symm.trans (line_of_readFrom h hplace).symm

theorem EndsRecord.exists_break {cs : List Char} (h : EndsRecord cs) :
    ∃ body c, cs = body ++ [c] ∧ isBreak c = true := by
  obtain ⟨body, c, rfl, hrecord⟩ := h
  refine ⟨body, c, rfl, ?_⟩
  rcases step_cases (Reader.atStart.behind body) c with ⟨-, hc, -⟩ | ⟨-, hc, -⟩ | ⟨-, r', hstep, -⟩
  · exact hc
  · exact hc
  · rw [hstep] at hrecord
    cases hrecord

/-! ### Marks -/

theorem exists_mark (cs : List Char) :
    ∃ marks, cs = marks ++ dropMark cs ∧ ∀ c ∈ marks, isBreak c = false := by
  cases cs with
  | nil => exact ⟨[], rfl, List.forall_mem_nil _⟩
  | cons c cs =>
    by_cases hc : c = byteOrderMark
    · subst hc
      exact ⟨[byteOrderMark], rfl, List.forall_mem_singleton.2 rfl⟩
    · refine ⟨[], ?_, List.forall_mem_nil _⟩
      rw [dropMark, if_neg hc]
      rfl

theorem exists_marks (cs : List Char) :
    ∃ marks, cs = marks ++ dropMark (dropMark cs) ∧ ∀ c ∈ marks, isBreak c = false := by
  obtain ⟨outer, houter, hplainOuter⟩ := exists_mark cs
  obtain ⟨inner, hinner, hplainInner⟩ := exists_mark (dropMark cs)
  refine ⟨outer ++ inner, ?_, List.forall_mem_append.2 ⟨hplainOuter, hplainInner⟩⟩
  rw [List.append_assoc, ← hinner]
  exact houter

end Csv

namespace Interchange

open Csv

/-- A text is split at its first record that has not as many fields as the first one: behind byte
order marks, `ended` ends with the record before, `skipped` are breaks, and the record begins with
`rest`. -/
structure SplitAtOdd (text marks ended skipped rest : List Char) (expected found : Nat) :
    Prop where
  split : text = marks ++ (ended ++ skipped ++ rest)
  stripped : dropMark (dropMark text) = ended ++ skipped ++ rest
  ends : EndsRecord ended
  skips : ∀ c ∈ skipped, isBreak c = true
  begins : ∃ c cs, rest = c :: cs ∧ isBreak c = false
  isOdd : ∃ first even odd others,
    readFrom .atStart (ended ++ skipped) = first :: even ∧
    readFrom .atStart (ended ++ skipped ++ rest) = first :: even ++ odd :: others ∧
    first.fields.length = expected ∧ (∀ r ∈ even, r.fields.length = expected) ∧
    odd.fields.length = found ∧ found ≠ expected

section Ragged

variable {text : String} {line expected found : Nat}

/-- The line that is reported counts the line feeds up to the end of the record before; it is the
line on which the record begins exactly if no break is skipped there and no carriage return stands by
itself before. -/
theorem ragged_line_eq_iff (h : importText text = .error (.ragged line expected found)) :
    ∃ marks ended skipped rest,
      SplitAtOdd text.toList marks ended skipped rest expected found ∧
      line = ended.count '\n' + 1 ∧
      (line = lineEnds (marks ++ (ended ++ skipped)) + 1 ↔ skipped = [] ∧ FedReturns ended) := by
  cases importText_eq_error_iff.1 h with
  | ragged first odd even others htext hrecords heven hodd =>
    have hsplit : readFrom .atStart (dropMark (dropMark text.toList)) =
        (first :: even) ++ odd :: others := hrecords
    obtain ⟨before, c, rest, hcs, hc, hread, hplace, hline⟩ :=
      beginsBehind_of_readFrom (.inr rfl) hsplit
    obtain ⟨ended, skipped, rfl, hended, hskips, hstart⟩ := start_behind hplace
    -- a record stands before the odd one, so the text before it is not all breaks
    have hends : EndsRecord ended := by
      refine hended.resolve_left ?_
      rintro rfl
      rw [List.nil_append, readFrom_breaks rfl hskips] at hread
      cases hread
    obtain ⟨marks, hmarks, hplain⟩ := exists_marks text.toList
    have hcount : odd.line = ended.count '\n' + 1 := hline.symm.trans hstart
    refine ⟨marks, ended, skipped, c :: rest, ⟨?_, hcs, hends, hskips, ⟨c, rest, rfl, hc⟩, ?_⟩,
      hcount, ?_⟩
    · rw [hcs] at hmarks
      exact hmarks
    · exact ⟨first, even, odd, others, hread, hcs ▸ hsplit, rfl, heven, rfl, hodd⟩
    · obtain ⟨body, b, rfl, hb⟩ := hends.exists_break
      rw [hcount, lineEnds_append_of_plain hplain, Nat.add_right_cancel_iff,
        ← lineEnds_append_eq_count_iff hb hskips]
      exact eq_comm

/-- The second line has one field too few. -/
theorem ragged_line_eq_second :
    importText "a,b\nc\n" = .error (.ragged 2 2 1) ∧
      ∃ marks ended skipped rest,
        SplitAtOdd "a,b\nc\n".toList marks ended skipped rest 2 1 ∧
        2 = ended.count '\n' + 1 ∧
        (2 = lineEnds (marks ++ (ended ++ skipped)) + 1 ↔ skipped = [] ∧ FedReturns ended) := by
  have h : importText "a,b\nc\n" = .error (.ragged 2 2 1) := by decide
  exact ⟨h, ragged_line_eq_iff h⟩

/-- A line feed behind a carriage return is skipped, and the line that it ends is not counted. -/
theorem not_ragged_line_eq :
    ¬ ∀ (text : String) (line expected found : Nat) (marks ended skipped rest : List Char),
      importText text = .error (.ragged line expected found) →
      SplitAtOdd text.toList marks ended skipped rest expected found →
      line = lineEnds (marks ++ (ended ++ skipped)) + 1 := by
  intro h
  have hreported : importText "a,b\r\nc\r\n" = .error (.ragged 1 2 1) := by decide
  have hsplit : SplitAtOdd "a,b\r\nc\r\n".toList [] ['a', ',', 'b', '\r'] ['\n']
      ['c', '\r', '\n'] 2 1 :=
    { split := by decide
      stripped := by decide
      ends := ⟨['a', ',', 'b'], '\r', rfl, by decide⟩
      skips := List.forall_mem_singleton.2 rfl
      begins := ⟨'c', ['\r', '\n'], rfl, by decide⟩
      isOdd := ⟨⟨1, [['a'], ['b']]⟩, [], ⟨1, [['c']]⟩, [], by decide, by decide, rfl,
        List.forall_mem_nil _, rfl, by decide⟩ }
  exact absurd (h _ _ _ _ _ _ _ _ hreported hsplit) (by decide)

end Ragged

end Interchange

end Spreadsheet
