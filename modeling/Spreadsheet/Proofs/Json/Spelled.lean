import Spreadsheet.Json.Record
import Spreadsheet.Json.Value
import Spreadsheet.Proofs.Text.Classes

/-!
# Spreadsheet.Proofs.Json.Spelled — every spelling of a value is read

`Spelled` are the texts that JSON has for a value: blanks may stand between its parts, a number may
have a sign, places and an exponent, and any character of a text may be escaped.  Each of them is
read as the value, whatever else follows, and the room that the reader has is enough for it.  A value
that has been spelled can be skipped too, even if its texts hold surrogates without a partner.
-/

namespace Spreadsheet

/-- The comma before a member that is not the first one. -/
def JsonValue.separator (first : Bool) : List Char := if first then [] else [',']

namespace JsonTree

open JsonValue (separator boolText)

/-! ### The spellings of a value -/

/-- Blanks between the parts of a value. -/
def Spaces (gap : List Char) : Prop := ∀ c ∈ gap, isSpace c = true

/-- One digit or more. -/
structure IsDigits (ds : List Char) : Prop where
  filled : ds ≠ []
  digits : ∀ c ∈ ds, c.isDigit = true

/-- The digits before the point: a zero alone, or digits that do not begin with one. -/
structure IsWhole (ds : List Char) : Prop extends IsDigits ds where
  noLeadingZero : ds.head? = some '0' → ds.length = 1

/-- The sign of a number. -/
def signText (negative : Bool) : List Char := if negative then ['-'] else []

/-- The spellings of the places behind the point, if there are any. -/
inductive SpelledPlaces : Option (List Char) → List Char → Prop
  | absent : SpelledPlaces none []
  | point {ds : List Char} : IsDigits ds → SpelledPlaces (some ds) ('.' :: ds)

/-- The spellings of an exponent, if there is one. -/
inductive SpelledExponent : Option Int → List Char → Prop
  | absent : SpelledExponent none []
  | positive {mark : Char} {sign ds : List Char} : mark = 'e' ∨ mark = 'E' →
    sign = [] ∨ sign = ['+'] → IsDigits ds →
    SpelledExponent (some (Nat.ofDigitChars 10 ds 0 : Nat)) (mark :: (sign ++ ds))
  | negative {mark : Char} {ds : List Char} : mark = 'e' ∨ mark = 'E' → IsDigits ds →
    SpelledExponent (some (-(Nat.ofDigitChars 10 ds 0 : Nat))) (mark :: '-' :: ds)

/-- The tree of a number of these parts. -/
def numberOf (negative : Bool) (whole : List Char) (places : Option (List Char))
    (exponent : Option Int) : JsonTree :=
  number
    (if !negative && places.isNone && exponent.isNone then some (Nat.ofDigitChars 10 whole 0)
      else none)
    (Decimal.leading whole (places.getD []) (exponent.getD 0)).staysFinite

/-- The spellings of a code by four hexadecimal digits. -/
inductive SpelledCode : Nat → List Char → Prop
  | digits {a b c d : Char} {x y z w : Nat} : hexValue? a = some x → hexValue? b = some y →
    hexValue? c = some z → hexValue? d = some w →
    SpelledCode (((x * 16 + y) * 16 + z) * 16 + w) [a, b, c, d]

/-- The spellings of a unit between quotes: the character itself, or an escape. -/
inductive SpelledUnit : TextUnit → List Char → Prop
  | plain {c : Char} : c ≠ '"' → c ≠ '\\' → ¬ c.toNat < 0x20 → SpelledUnit (.char c) [c]
  | simple {c d : Char} : simpleEscape? d = some c → SpelledUnit (.char c) ['\\', d]
  | code {n : Nat} {ds : List Char} : SpelledCode n ds →
    SpelledUnit (unitOf n) ('\\' :: 'u' :: ds)

/-- The spellings of units one after the other. -/
inductive SpelledUnits : List TextUnit → List Char → Prop
  | nil : SpelledUnits [] []
  | cons {u : TextUnit} {us : List TextUnit} {cs rest : List Char} : SpelledUnit u cs →
    SpelledUnits us rest → SpelledUnits (u :: us) (cs ++ rest)

mutual

/-- The spellings of a value. -/
inductive Spelled : JsonTree → List Char → Prop
  | null : Spelled null ['n', 'u', 'l', 'l']
  | bool (b : Bool) : Spelled (bool b) (boolText b)
  | number {negative : Bool} {whole ps es : List Char} {places : Option (List Char)}
      {exponent : Option Int} : IsWhole whole → SpelledPlaces places ps →
    SpelledExponent exponent es →
    Spelled (numberOf negative whole places exponent) (signText negative ++ (whole ++ (ps ++ es)))
  | text {us : List TextUnit} {cs : List Char} : SpelledUnits us cs →
    Spelled (text (pairUnits none us)) ('"' :: (cs ++ ['"']))
  | array {ts : List JsonTree} {cs : List Char} : SpelledItems true ts cs →
    Spelled (array ts none) ('[' :: cs)
  | object {ms : List (Except JsonFault (List Char) × JsonTree)} {cs : List Char} :
    SpelledMembers true ms cs → Spelled (object ms none) ('\x7b' :: cs)

/-- The spellings of items up to the closing bracket; `first` tells whether none stands before
them. -/
inductive SpelledItems : Bool → List JsonTree → List Char → Prop
  | nil {first : Bool} {gap : List Char} : Spaces gap → SpelledItems first [] (gap ++ [']'])
  | cons {first : Bool} {t : JsonTree} {ts : List JsonTree} {before after cs rest : List Char} :
    Spaces before → Spaces after → Spelled t cs → SpelledItems false ts rest →
    SpelledItems first (t :: ts) (before ++ (separator first ++ (after ++ (cs ++ rest))))

/-- The spellings of members up to the closing brace; `first` tells whether none stands before
them. -/
inductive SpelledMembers :
    Bool → List (Except JsonFault (List Char) × JsonTree) → List Char → Prop
  | nil {first : Bool} {gap : List Char} : Spaces gap → SpelledMembers first [] (gap ++ ['\x7d'])
  | cons {first : Bool} {us : List TextUnit} {t : JsonTree}
      {ms : List (Except JsonFault (List Char) × JsonTree)}
      {before after between gap key cs rest : List Char} : Spaces before → Spaces after →
    Spaces between → Spaces gap → SpelledUnits us key → Spelled t cs →
    SpelledMembers false ms rest →
    SpelledMembers first ((pairUnits none us, t) :: ms)
      (before ++ (separator first ++ (after ++
        ('"' :: (key ++ '"' :: (between ++ ':' :: (gap ++ (cs ++ rest))))))))

end

/-- A whole text that spells a value. -/
def IsTextOf (t : JsonTree) (s : String) : Prop :=
  ∃ before cs after, Spaces before ∧ Spelled t cs ∧ Spaces after ∧
    s.toList = before ++ (cs ++ after)

variable {rest : List Char}

/-! ### Blanks and what follows a value -/

theorem spaces_nil : Spaces [] := fun _ hc => nomatch hc

theorem skipSpace_append {gap : List Char} (hgap : Spaces gap) (cs : List Char) :
    skipSpace (gap ++ cs) = skipSpace cs :=
  List.dropWhile_append_of_pos hgap

theorem skipSpace_cons {c : Char} (hc : isSpace c = false) (cs : List Char) :
    skipSpace (c :: cs) = c :: cs :=
  List.dropWhile_cons_of_neg (by rw [hc]; exact Bool.false_ne_true)

theorem not_isSpace_of_isDigit {c : Char} (hc : c.isDigit = true) : isSpace c = false := by
  rw [← Bool.not_eq_true]
  intro hspace
  simp only [isSpace, Bool.or_eq_true, beq_iff_eq] at hspace
  rcases hspace with ((rfl | rfl) | rfl) | rfl <;> exact absurd hc (by decide)

theorem readValue_skip {gap : List Char} (hgap : Spaces gap) (room : Nat) (cs : List Char) :
    readValue room (gap ++ cs) = readValue room cs := by
  cases room with
  | zero => rfl
  | succ n => rw [readValue, readValue, skipSpace_append hgap]

/-- What may follow a value: nothing, a blank or what stands behind an item or a member. -/
def Ends (rest : List Char) : Prop :=
  ∀ c ∈ rest.head?, isSpace c = true ∨ c = ',' ∨ c = ']' ∨ c = '\x7d'

theorem ends_append {gap : List Char} (hgap : Spaces gap) {c : Char}
    (hc : c = ',' ∨ c = ']' ∨ c = '\x7d') (rest : List Char) : Ends (gap ++ c :: rest) := by
  intro d hd
  cases gap with
  | nil =>
    obtain rfl : c = d := Option.some.inj hd
    exact .inr hc
  | cons e gap =>
    obtain rfl : e = d := Option.some.inj hd
    exact .inl (hgap e List.mem_cons_self)

theorem ends_spaces {gap : List Char} (hgap : Spaces gap) : Ends gap := by
  intro c hc
  exact .inl (hgap c (List.mem_of_head? hc))

theorem ends_items {ts : List JsonTree} {cs : List Char} (h : SpelledItems false ts cs)
    (rest : List Char) : Ends (cs ++ rest) := by
  cases h with
  | nil hgap =>
    rw [List.append_assoc]
    exact ends_append hgap (.inr (.inl rfl)) rest
  | cons hbefore =>
    rw [List.append_assoc]
    exact ends_append hbefore (.inl rfl) _

theorem ends_members {ms : List (Except JsonFault (List Char) × JsonTree)} {cs : List Char}
    (h : SpelledMembers false ms cs) (rest : List Char) : Ends (cs ++ rest) := by
  cases h with
  | nil hgap =>
    rw [List.append_assoc]
    exact ends_append hgap (.inr (.inr rfl)) rest
  | cons hbefore =>
    rw [List.append_assoc]
    exact ends_append hbefore (.inl rfl) _

/-- No part of a number follows a value. -/
theorem Ends.head (h : Ends rest) :
    ∀ c ∈ rest.head?, c.isDigit = false ∧ c ≠ '.' ∧ ¬ (c = 'e' ∨ c = 'E') := by
  intro c hc
  rcases h c hc with hspace | rfl | rfl | rfl
  · simp only [isSpace, Bool.or_eq_true, beq_iff_eq] at hspace
    rcases hspace with ((rfl | rfl) | rfl) | rfl <;> decide
  · decide
  · decide
  · decide

/-! ### Numbers -/

theorem wholeDigits_append {whole cs : List Char} (h : IsWhole whole)
    (hcs : ∀ c ∈ cs.head?, c.isDigit = false) : wholeDigits (whole ++ cs) = .ok (whole, cs) := by
  have hne : whole.isEmpty = false := List.isEmpty_eq_false_iff.2 h.filled
  have hone : ¬ (whole.head? = some '0' ∧ 1 < whole.length) := by
    rintro ⟨hhead, hlength⟩
    have := h.noLeadingZero hhead
    omega
  simp only [wholeDigits, Text.takeWhile_append h.digits hcs, Text.dropWhile_append h.digits hcs,
    hne, hone, if_false, Bool.false_eq_true]

theorem optionalPlaces_append {places : Option (List Char)} {ps cs : List Char}
    (h : SpelledPlaces places ps) (hcs : ∀ c ∈ cs.head?, c.isDigit = false ∧ c ≠ '.') :
    optionalPlaces (ps ++ cs) = .ok (places, cs) := by
  have hdigit : ∀ c ∈ cs.head?, c.isDigit = false := fun c hc => (hcs c hc).1
  cases h with
  | absent =>
    rw [List.nil_append]
    unfold optionalPlaces
    split
    · exact absurd rfl (hcs '.' rfl).2
    · rfl
  | @point ds hds =>
    have hne : ds.isEmpty = false := List.isEmpty_eq_false_iff.2 hds.filled
    rw [List.cons_append, optionalPlaces]
    simp only [Text.takeWhile_append hds.digits hdigit, Text.dropWhile_append hds.digits hdigit,
      hne, if_false, Bool.false_eq_true]

/-- The digits of an exponent do not begin with a sign. -/
theorem IsDigits.head_ne {ds : List Char} (h : IsDigits ds) {c : Char} (hc : c.isDigit = false)
    (cs tail : List Char) : ds ++ cs ≠ c :: tail := by
  obtain ⟨d, more, rfl⟩ := List.exists_cons_of_ne_nil h.filled
  intro heq
  have hd := h.digits d List.mem_cons_self
  rw [(List.cons.inj heq).1, hc] at hd
  exact Bool.false_ne_true hd

theorem readExponent_positive {sign ds cs : List Char} (hsign : sign = [] ∨ sign = ['+'])
    (h : IsDigits ds) (hcs : ∀ c ∈ cs.head?, c.isDigit = false) :
    readExponent (sign ++ (ds ++ cs)) = .ok ((Nat.ofDigitChars 10 ds 0 : Nat), cs) := by
  have hne : ds.isEmpty = false := List.isEmpty_eq_false_iff.2 h.filled
  unfold readExponent
  rcases hsign with rfl | rfl
  · rw [List.nil_append]
    split
    rename_i negative digits hsplit
    split at hsplit
    · exact absurd ‹_› (h.head_ne rfl cs _)
    · exact absurd ‹_› (h.head_ne rfl cs _)
    · obtain ⟨rfl, rfl⟩ := Prod.mk.inj hsplit
      simp only [Text.takeWhile_append h.digits hcs, Text.dropWhile_append h.digits hcs, hne,
        if_false, Bool.false_eq_true]
  · simp only [List.cons_append, List.nil_append, Text.takeWhile_append h.digits hcs,
      Text.dropWhile_append h.digits hcs, hne, if_false, Bool.false_eq_true]

theorem readExponent_negative {ds cs : List Char} (h : IsDigits ds)
    (hcs : ∀ c ∈ cs.head?, c.isDigit = false) :
    readExponent ('-' :: (ds ++ cs)) = .ok (-(Nat.ofDigitChars 10 ds 0 : Nat), cs) := by
  have hne : ds.isEmpty = false := List.isEmpty_eq_false_iff.2 h.filled
  simp only [readExponent, Text.takeWhile_append h.digits hcs, Text.dropWhile_append h.digits hcs,
    hne, if_false, Bool.false_eq_true, if_true]

theorem optionalExponent_append {exponent : Option Int} {es : List Char}
    (h : SpelledExponent exponent es) (hrest : Ends rest) :
    optionalExponent (es ++ rest) = .ok (exponent, rest) := by
  have hdigit : ∀ c ∈ rest.head?, c.isDigit = false := fun c hc => (hrest.head c hc).1
  cases h with
  | absent =>
    rw [List.nil_append]
    cases rest with
    | nil => rfl
    | cons c cs => rw [optionalExponent, if_neg (hrest.head c rfl).2.2]
  | positive hmark hsign hds =>
    rw [List.cons_append, List.append_assoc, optionalExponent, if_pos hmark,
      readExponent_positive hsign hds hdigit]
    rfl
  | negative hmark hds =>
    rw [List.cons_append, List.cons_append, optionalExponent, if_pos hmark,
      readExponent_negative hds hdigit]
    rfl

/-- Neither a digit nor a point follows the digits that an exponent may follow. -/
theorem SpelledExponent.head {exponent : Option Int} {es : List Char}
    (h : SpelledExponent exponent es) (hrest : Ends rest) :
    ∀ c ∈ (es ++ rest).head?, c.isDigit = false ∧ c ≠ '.' := by
  intro c hc
  have hmark : ∀ {mark : Char}, mark = 'e' ∨ mark = 'E' → mark.isDigit = false ∧ mark ≠ '.' := by
    rintro mark (rfl | rfl) <;> decide
  cases h with
  | absent => exact ⟨(hrest.head c hc).1, (hrest.head c hc).2.1⟩
  | positive h => exact Option.some.inj hc ▸ hmark h
  | negative h => exact Option.some.inj hc ▸ hmark h

/-- No digit follows the whole digits of a number. -/
theorem SpelledPlaces.head {places : Option (List Char)} {ps cs : List Char}
    (h : SpelledPlaces places ps) (hcs : ∀ c ∈ cs.head?, c.isDigit = false ∧ c ≠ '.') :
    ∀ c ∈ (ps ++ cs).head?, c.isDigit = false := by
  intro c hc
  cases h with
  | absent => exact (hcs c hc).1
  | point => exact Option.some.inj hc ▸ rfl

theorem readNumber_spelled {whole ps es : List Char} {places : Option (List Char)}
    {exponent : Option Int} (hwhole : IsWhole whole) (hplaces : SpelledPlaces places ps)
    (hexponent : SpelledExponent exponent es) (hrest : Ends rest) (negative : Bool) :
    readNumber negative (whole ++ (ps ++ (es ++ rest))) =
      .ok (numberOf negative whole places exponent, rest) := by
  have hafter := hexponent.head hrest
  rw [readNumber, wholeDigits_append hwhole (hplaces.head hafter)]
  simp only [bind, Except.bind, optionalPlaces_append hplaces hafter,
    optionalExponent_append hexponent hrest]
  rfl

theorem readValue_digit {c : Char} (hc : c.isDigit = true) (room : Nat) (cs : List Char) :
    readValue (room + 1) (c :: cs) = orBroken (readNumber false (c :: cs)) := by
  rw [readValue, skipSpace_cons (not_isSpace_of_isDigit hc)]
  split
  · next h => exact absurd h (List.cons_ne_nil _ _)
  · next h => cases h; exact absurd hc (by decide)
  · next h => cases h; exact absurd hc (by decide)
  · next h => cases h; exact absurd hc (by decide)
  · next h => cases h; exact absurd hc (by decide)
  · next h =>
    cases h
    rw [if_pos hc]

theorem readValue_minus (room : Nat) (cs : List Char) :
    readValue (room + 1) ('-' :: cs) = orBroken (readNumber true cs) := by
  rw [readValue]
  rfl

theorem readValue_number {whole ps es : List Char} {places : Option (List Char)}
    {exponent : Option Int} (hwhole : IsWhole whole) (hplaces : SpelledPlaces places ps)
    (hexponent : SpelledExponent exponent es) (hrest : Ends rest) (negative : Bool) (room : Nat) :
    readValue (room + 1) (signText negative ++ (whole ++ (ps ++ (es ++ rest)))) =
      (numberOf negative whole places exponent, rest) := by
  have hread := readNumber_spelled hwhole hplaces hexponent hrest negative
  cases negative with
  | true =>
    rw [signText, if_pos rfl, List.singleton_append, readValue_minus, hread]
    rfl
  | false =>
    obtain ⟨d, ds, rfl⟩ := List.exists_cons_of_ne_nil hwhole.filled
    rw [List.cons_append] at hread
    rw [signText, if_neg Bool.false_ne_true, List.nil_append, List.cons_append,
      readValue_digit (hwhole.digits d List.mem_cons_self), hread]
    rfl

/-! ### Texts -/

theorem unitsFrom_skip (k : Nat) (cs : List Char) : unitsFrom k cs = unitsFrom 0 (cs.drop k) := by
  induction k generalizing cs with
  | zero => rfl
  | succ k ih =>
    cases cs with
    | nil => rfl
    | cons c cs =>
      rw [unitsFrom, ih]
      rfl

theorem hexEscape_spelled {n : Nat} {ds : List Char} (h : SpelledCode n ds) (rest : List Char) :
    hexEscape (ds ++ rest) = .ok (n, rest) := by
  obtain ⟨ha, hb, hc, hd⟩ := h
  simp only [List.cons_append, List.nil_append, hexEscape, ha, hb, hc, hd]

/-- Every spelling of a unit is read as it. -/
theorem unitsFrom_spelled {u : TextUnit} {cs : List Char} (h : SpelledUnit u cs)
    (rest : List Char) : unitsFrom 0 (cs ++ rest) = withUnit u (unitsFrom 0 rest) := by
  cases h with
  | plain hquote hslash hcontrol =>
    rw [List.singleton_append, unitsFrom.eq_def]
    simp only [hquote, hslash, hcontrol, if_false]
  | @simple c d hescape =>
    have hnot : d ≠ 'u' := by
      rintro rfl
      cases hescape
    have hskip : unitsFrom 1 (d :: rest) = unitsFrom 0 rest := unitsFrom_skip 1 _
    rw [List.cons_append, List.singleton_append, unitsFrom]
    · simp only [show ('\\' : Char) ≠ '"' by decide, if_false, if_true, hescape, hskip]
    · exact hnot
  | @code n ds hcode =>
    have hread := hexEscape_spelled hcode rest
    -- the four digits have been read with the `u` and are passed over
    have hskip : unitsFrom 5 ('u' :: (ds ++ rest)) = unitsFrom 0 rest := by
      cases hcode
      exact unitsFrom_skip 5 _
    rw [List.cons_append, List.cons_append, unitsFrom]
    simp only [show ('\\' : Char) ≠ '"' by decide, if_false, if_true, hread, hskip]

theorem unitsFrom_closed {us : List TextUnit} {cs : List Char} (h : SpelledUnits us cs)
    (rest : List Char) : unitsFrom 0 (cs ++ '"' :: rest) = (us, .closed rest) := by
  induction h with
  | nil => rfl
  | cons hu _ ih =>
    rw [List.append_assoc, unitsFrom_spelled hu, ih]
    rfl

/-- The first quote that is not escaped closes a text. -/
theorem readText_spelled {us : List TextUnit} {cs : List Char} (h : SpelledUnits us cs)
    (rest : List Char) : readText (cs ++ '"' :: rest) = (pairUnits none us, .ok rest) := by
  rw [readText, unitsFrom_closed h]

/-! ### Values, items and members -/

theorem readValue_null (room : Nat) (rest : List Char) :
    readValue (room + 1) (['n', 'u', 'l', 'l'] ++ rest) = (.null, rest) := by
  rw [readValue]
  rfl

theorem readValue_bool (b : Bool) (room : Nat) (rest : List Char) :
    readValue (room + 1) (boolText b ++ rest) = (.bool b, rest) := by
  cases b <;> rw [readValue] <;> rfl

theorem readValue_text {us : List TextUnit} {cs : List Char} (h : SpelledUnits us cs) (room : Nat)
    (rest : List Char) :
    readValue (room + 1) ('"' :: (cs ++ '"' :: rest)) = (.text (pairUnits none us), rest) := by
  have hskip : skipSpace ('"' :: (cs ++ '"' :: rest)) = '"' :: (cs ++ '"' :: rest) := rfl
  rw [readValue, hskip]
  simp only [readText_spelled h]

theorem readValue_array (room : Nat) (cs : List Char) :
    readValue (room + 1) ('[' :: cs) =
      (.array (readItems room true cs).1 (readItems room true cs).2.1,
        (readItems room true cs).2.2) := by
  rw [readValue]
  rfl

theorem readValue_object (room : Nat) (cs : List Char) :
    readValue (room + 1) ('\x7b' :: cs) =
      (.object (readMembers room true cs).1 (readMembers room true cs).2.1,
        (readMembers room true cs).2.2) := by
  rw [readValue]
  rfl

theorem readItems_nil {gap : List Char} (hgap : Spaces gap) (first : Bool) (room : Nat)
    (rest : List Char) : readItems (room + 1) first (gap ++ ']' :: rest) = ([], none, rest) := by
  rw [readItems, skipSpace_append hgap]
  rfl

/-- What a value begins with. -/
theorem Spelled.exists_cons {t : JsonTree} {cs : List Char} (h : Spelled t cs) :
    ∃ c tail, cs = c :: tail ∧ isSpace c = false ∧ c ≠ ']' := by
  cases h with
  | null => exact ⟨'n', _, rfl, rfl, by decide⟩
  | bool b =>
    cases b with
    | true => exact ⟨'t', _, rfl, rfl, by decide⟩
    | false => exact ⟨'f', _, rfl, rfl, by decide⟩
  | @number negative whole ps es _ _ hwhole =>
    cases negative with
    | true => exact ⟨'-', _, rfl, rfl, by decide⟩
    | false =>
      obtain ⟨d, ds, rfl⟩ := List.exists_cons_of_ne_nil hwhole.filled
      have hd := hwhole.digits d List.mem_cons_self
      refine ⟨d, _, rfl, not_isSpace_of_isDigit hd, ?_⟩
      rintro rfl
      exact absurd hd (by decide)
  | text => exact ⟨'"', _, rfl, rfl, by decide⟩
  | array => exact ⟨'[', _, rfl, rfl, by decide⟩
  | object => exact ⟨'\x7b', _, rfl, rfl, by decide⟩

theorem Spelled.length_pos {t : JsonTree} {cs : List Char} (h : Spelled t cs) : 0 < cs.length := by
  obtain ⟨c, tail, rfl, -⟩ := h.exists_cons
  exact Nat.succ_pos _

theorem readItems_cons {before after cs : List Char} {t : JsonTree} (hbefore : Spaces before)
    (hafter : Spaces after) (hcs : Spelled t cs) (first : Bool) (room : Nat) (rest : List Char) :
    readItems (room + 1) first (before ++ (separator first ++ (after ++ (cs ++ rest)))) =
      ((readValue room (cs ++ rest)).1 :: (readItems room false (readValue room (cs ++ rest)).2).1,
        (readItems room false (readValue room (cs ++ rest)).2).2) := by
  rw [readItems, skipSpace_append hbefore]
  cases first with
  | true =>
    obtain ⟨c, tail, rfl, hspace, hclose⟩ := hcs.exists_cons
    rw [separator, if_pos rfl, List.nil_append, skipSpace_append hafter, List.cons_append,
      skipSpace_cons hspace]
    simp only [hclose, if_false, if_true]
  | false =>
    have hcomma : skipSpace (separator false ++ (after ++ (cs ++ rest))) =
        ',' :: (after ++ (cs ++ rest)) := rfl
    rw [hcomma]
    simp only [show (',' : Char) ≠ ']' by decide, if_false, if_true, Bool.false_eq_true,
      readValue_skip hafter]

theorem readMembers_nil {gap : List Char} (hgap : Spaces gap) (first : Bool) (room : Nat)
    (rest : List Char) :
    readMembers (room + 1) first (gap ++ '\x7d' :: rest) = ([], none, rest) := by
  rw [readMembers, skipSpace_append hgap]
  rfl

theorem readMembers_cons {us : List TextUnit} {before after between key : List Char}
    (hbefore : Spaces before) (hafter : Spaces after) (hbetween : Spaces between)
    (hkey : SpelledUnits us key) (first : Bool) (room : Nat) (cs : List Char) :
    readMembers (room + 1) first
        (before ++ (separator first ++ (after ++ ('"' :: (key ++ '"' :: (between ++ ':' :: cs)))))) =
      ((pairUnits none us, (readValue room cs).1) ::
          (readMembers room false (readValue room cs).2).1,
        (readMembers room false (readValue room cs).2).2) := by
  have hquote : skipSpace (after ++ ('"' :: (key ++ '"' :: (between ++ ':' :: cs)))) =
      '"' :: (key ++ '"' :: (between ++ ':' :: cs)) := by
    rw [skipSpace_append hafter]
    rfl
  have hcolon : skipSpace (between ++ ':' :: cs) = ':' :: cs := by
    rw [skipSpace_append hbetween]
    rfl
  rw [readMembers, skipSpace_append hbefore]
  -- the first member has no comma before it, and white space is skipped twice
  cases first with
  | true =>
    rw [separator, if_pos rfl, List.nil_append, hquote]
    have hagain : skipSpace ('"' :: (key ++ '"' :: (between ++ ':' :: cs))) =
        '"' :: (key ++ '"' :: (between ++ ':' :: cs)) := rfl
    simp only [show ('"' : Char) ≠ '\x7d' by decide, if_false, if_true, Bool.not_true,
      Bool.false_and, Bool.false_eq_true, hagain, readText_spelled hkey, hcolon]
  | false =>
    have hcomma :
        skipSpace (separator false ++ (after ++ ('"' :: (key ++ '"' :: (between ++ ':' :: cs))))) =
          ',' :: (after ++ ('"' :: (key ++ '"' :: (between ++ ':' :: cs)))) := rfl
    rw [hcomma]
    simp only [show (',' : Char) ≠ '\x7d' by decide, if_false, ne_eq, not_true, decide_false,
      Bool.and_false, Bool.false_eq_true, hquote, readText_spelled hkey, hcolon]

/-- Spellings of values, of items and of members are read back, whatever follows them, if there is
room.  The room shrinks by one for every item and for every value, and both may begin at the same
character. -/
theorem read_of_spelled (room : Nat) :
    (∀ {t : JsonTree} {cs rest : List Char}, Spelled t cs → Ends rest → 2 * cs.length ≤ room →
      readValue room (cs ++ rest) = (t, rest)) ∧
    (∀ {first : Bool} {ts : List JsonTree} {cs : List Char} (rest : List Char),
      SpelledItems first ts cs → 2 * cs.length < room →
      readItems room first (cs ++ rest) = (ts, none, rest)) ∧
    (∀ {first : Bool} {ms : List (Except JsonFault (List Char) × JsonTree)} {cs : List Char}
      (rest : List Char), SpelledMembers first ms cs → 2 * cs.length < room →
      readMembers room first (cs ++ rest) = (ms, none, rest)) := by
  -- induction on the room, for values, items and members at once, since each reads the others
  induction room with
  | zero =>
    refine ⟨fun ht _ h => ?_, fun _ _ h => absurd h (by omega), fun _ _ h => absurd h (by omega)⟩
    -- no value is spelled by nothing
    have hfilled := ht.length_pos
    omega
  | succ room ih =>
    obtain ⟨ihValue, ihItems, ihMembers⟩ := ih
    refine ⟨?_, ?_, ?_⟩
    · intro t cs rest ht hrest hroom
      cases ht with
      | null => exact readValue_null room rest
      | bool b => exact readValue_bool b room rest
      | number hwhole hplaces hexponent =>
        simp only [List.append_assoc]
        exact readValue_number hwhole hplaces hexponent hrest _ room
      | text hus =>
        rw [List.cons_append, List.append_assoc]
        exact readValue_text hus room rest
      | array hts =>
        rw [List.length_cons] at hroom
        rw [List.cons_append, readValue_array, ihItems rest hts (by omega)]
      | object hms =>
        rw [List.length_cons] at hroom
        rw [List.cons_append, readValue_object, ihMembers rest hms (by omega)]
    · intro first ts cs rest hts hroom
      cases hts with
      | nil hgap =>
        rw [List.append_assoc]
        exact readItems_nil hgap first room rest
      | cons hbefore hafter ht hmore =>
        -- an item takes a character, so there is room for the items behind it
        have hfilled := ht.length_pos
        simp only [List.length_append] at hroom
        simp only [List.append_assoc]
        rw [readItems_cons hbefore hafter ht, ihValue ht (ends_items hmore rest) (by omega),
          ihItems rest hmore (by omega)]
    · intro first ms cs rest hms hroom
      cases hms with
      | nil hgap =>
        rw [List.append_assoc]
        exact readMembers_nil hgap first room rest
      | cons hbefore hafter hbetween hgap hkey ht hmore =>
        simp only [List.length_append, List.length_cons] at hroom
        simp only [List.append_assoc, List.cons_append]
        rw [readMembers_cons hbefore hafter hbetween hkey, readValue_skip hgap,
          ihValue ht (ends_members hmore rest) (by omega), ihMembers rest hmore (by omega)]

/-- A value that stands alone in a text is decoded from its tree. -/
theorem parse_of_isTextOf {α : Type} (decode : JsonTree → Except JsonError α) {t : JsonTree}
    {s : String} (h : IsTextOf t s) : parse decode s = decode t := by
  obtain ⟨before, cs, after, hbefore, ht, hafter, hs⟩ := h
  have hlength := congrArg List.length hs
  rw [List.length_append, List.length_append] at hlength
  have hread : readValue (2 * s.toList.length + 1) s.toList = (t, after) := by
    rw [hs, readValue_skip hbefore]
    exact (read_of_spelled _).1 ht (ends_spaces hafter) (by rw [← hs]; omega)
  have hend : skipSpace after = [] := by
    rw [← List.append_nil after, skipSpace_append hafter]
    rfl
  rw [parse, read, hread]
  simp only [hend, List.isEmpty_nil, Bool.not_true, Bool.false_eq_true, if_false]
  show (decode t >>= .ok) = decode t
  cases decode t <;> rfl

/-! ### Skipping -/

mutual

/-- A spelled value is skipped. -/
theorem skip_of_spelled : ∀ {t : JsonTree} {cs : List Char}, Spelled t cs → skip t = .ok ()
  | .null, _, _ => rfl
  | .bool _, _, _ => rfl
  | .number _ _, _, _ => rfl
  | .text _, _, _ => rfl
  | .array _ _, _, .array hts => by
    rw [skip, skipItems_of_spelled hts]
    rfl
  | .object _ _, _, .object hms => by
    rw [skip, skipMembers_of_spelled hms]
    rfl

theorem skipItems_of_spelled : ∀ {first : Bool} {ts : List JsonTree} {cs : List Char},
    SpelledItems first ts cs → skipItems ts = .ok ()
  | _, [], _, _ => rfl
  | _, _ :: _, _, .cons _ _ ht hts => by
    rw [skipItems, skip_of_spelled ht]
    exact skipItems_of_spelled hts

theorem skipMembers_of_spelled :
    ∀ {first : Bool} {ms : List (Except JsonFault (List Char) × JsonTree)} {cs : List Char},
      SpelledMembers first ms cs → skipMembers ms = .ok ()
  | _, [], _, _ => rfl
  | _, (_, _) :: _, _, .cons _ _ _ _ _ ht hms => by
    rw [skipMembers, skip_of_spelled ht]
    exact skipMembers_of_spelled hms

end

theorem skip_of_mem_members {first : Bool}
    {ms : List (Except JsonFault (List Char) × JsonTree)} {cs : List Char}
    (h : SpelledMembers first ms cs) : ∀ m ∈ ms, skip m.2 = .ok () := by
  induction ms generalizing first cs with
  | nil => exact fun m hm => nomatch hm
  | cons m ms ih =>
    cases h with
    | cons _ _ _ _ _ ht hms =>
      exact List.forall_mem_cons.2 ⟨skip_of_spelled ht, ih hms⟩

end JsonTree

end Spreadsheet
