import Spreadsheet.Proofs.Json.Quoted
import Spreadsheet.Proofs.Json.Reading

/-!
# Spreadsheet.Proofs.Json.Written — written values are read back

`Written` are the texts of a value, with any blanks between its parts; both forms in which documents
are written are among them.  Each of them spells the value, so it is read back.
-/

namespace Spreadsheet

/-! ### The texts of a value -/

namespace JsonValue

open JsonTree

mutual

/-- The texts of a value. -/
inductive Written : JsonValue → List Char → Prop
  | bool (b : Bool) : Written (.bool b) (boolText b)
  | natural (n : Nat) : Written (.natural n) (Nat.toDigits 10 n)
  | text (s : String) : Written (.text s) (quoted s.toList)
  | object {ms : List (String × JsonValue)} {cs : List Char} :
    WrittenMembers true ms cs → Written (.object ms) ('\x7b' :: cs)

/-- The texts of members up to the closing brace; `first` tells whether none has been written. -/
inductive WrittenMembers : Bool → List (String × JsonValue) → List Char → Prop
  | nil {first : Bool} {gap : List Char} : Spaces gap → WrittenMembers first [] (gap ++ ['\x7d'])
  | cons {first : Bool} {key : String} {v : JsonValue} {ms : List (String × JsonValue)}
      {before after gap cs rest : List Char} : Spaces before → Spaces after → Spaces gap →
    Written v cs → WrittenMembers false ms rest →
    WrittenMembers first ((key, v) :: ms)
      (before ++ (separator first ++ (after ++ (quoted key.toList ++ ':' :: (gap ++ (cs ++ rest))))))

end

theorem spaces_lineAt (level : Nat) : Spaces (lineAt level) := by
  intro c hc
  rcases List.mem_cons.1 hc with rfl | hc
  · rfl
  · rw [List.eq_of_mem_replicate hc]
    rfl

theorem spaces_one : Spaces [' '] := by
  intro c hc
  rw [List.mem_singleton.1 hc]
  rfl

/-- The comma before the members that are left, if there are any. -/
def leading (first : Bool) (ms : List (String × JsonValue)) : List Char :=
  if ms.isEmpty then [] else separator first

theorem leading_true (ms : List (String × JsonValue)) : leading true ms = [] := by
  cases ms <;> rfl

theorem compactMembers_cons (key : String) (v : JsonValue) (ms : List (String × JsonValue)) :
    compactMembers ((key, v) :: ms) =
      quoted key.toList ++ ':' :: (compactText v ++ (leading false ms ++ compactMembers ms)) := by
  rw [compactMembers.eq_def]
  cases ms <;> simp [leading, separator]

theorem prettyMembers_cons (level : Nat) (key : String) (v : JsonValue)
    (ms : List (String × JsonValue)) :
    prettyMembers level ((key, v) :: ms) =
      lineAt (level + 1) ++ (quoted key.toList ++ ':' :: ' ' ::
        (prettyText (level + 1) v ++ (leading false ms ++ prettyMembers level ms))) := by
  rw [prettyMembers.eq_def]
  cases ms <;> simp [leading, separator]

mutual

/-- The text without blanks is one of the texts of a value. -/
theorem written_compactText : ∀ v : JsonValue, Written v (compactText v)
  | .bool b => .bool b
  | .natural n => .natural n
  | .text s => .text s
  | .object ms => by
    have h := writtenMembers_compactMembers true ms
    rw [leading_true] at h
    exact .object h

theorem writtenMembers_compactMembers (first : Bool) : ∀ ms : List (String × JsonValue),
    WrittenMembers first ms (leading first ms ++ compactMembers ms)
  | [] => .nil spaces_nil
  | (key, v) :: ms => by
    rw [compactMembers_cons]
    exact @WrittenMembers.cons first key v ms [] [] [] _ _ spaces_nil spaces_nil spaces_nil
      (written_compactText v) (writtenMembers_compactMembers false ms)

end

mutual

/-- The text with one member to a line is one of the texts of a value. -/
theorem written_prettyText (level : Nat) : ∀ v : JsonValue, Written v (prettyText level v)
  | .bool b => .bool b
  | .natural n => .natural n
  | .text s => .text s
  | .object [] => .object (.nil spaces_nil)
  | .object (m :: ms) => by
    have h := writtenMembers_prettyMembers level true (m :: ms)
    rw [leading_true] at h
    exact .object h

theorem writtenMembers_prettyMembers (level : Nat) (first : Bool) :
    ∀ ms : List (String × JsonValue),
      WrittenMembers first ms (leading first ms ++ prettyMembers level ms)
  | [] => .nil (spaces_lineAt level)
  | (key, v) :: ms => by
    rw [prettyMembers_cons]
    exact @WrittenMembers.cons first key v ms [] (lineAt (level + 1)) [' '] _ _ spaces_nil
      (spaces_lineAt (level + 1)) spaces_one (written_prettyText (level + 1) v)
      (writtenMembers_prettyMembers level false ms)

end

theorem written_compact (v : JsonValue) : v.Written v.compact.toList := by
  rw [compact, String.toList_ofList]
  exact written_compactText v

end JsonValue

/-! ### Reading a text of a value -/

namespace JsonTree

open JsonValue

mutual

/-- The tree of a value. -/
def ofValue : JsonValue → JsonTree
  | .bool b => .bool b
  | .natural n => .number (some n) (Decimal.leading (Nat.toDigits 10 n) [] 0).staysFinite
  | .text s => .text (.ok s.toList)
  | .object ms => .object (ofMembers ms) none

/-- The trees of members. -/
def ofMembers : List (String × JsonValue) → List (Except JsonFault (List Char) × JsonTree)
  | [] => []
  | (key, v) :: ms => (.ok key.toList, ofValue v) :: ofMembers ms

end

/-- The digits of a number other than zero do not begin with a zero. -/
theorem eq_zero_of_head_toDigits (n : Nat) (h : (Nat.toDigits 10 n).head? = some '0') : n = 0 := by
  induction n using Nat.strongRecOn with
  | ind n ih =>
    rcases Nat.lt_or_ge n 10 with hn | hn
    · rw [Nat.toDigits_of_lt_base hn] at h
      have hall : ∀ n < 10, Nat.digitChar n = '0' → n = 0 := by decide
      exact hall n hn (Option.some.inj h)
    · obtain ⟨d, ds, hds⟩ := List.exists_cons_of_ne_nil (Nat.toDigits_ne_nil (n := n / 10) (b := 10))
      rw [Nat.toDigits_of_base_le (by decide) hn, hds, List.cons_append, List.head?_cons] at h
      have := ih (n / 10) (by omega) (by rw [hds, List.head?_cons, h])
      omega

theorem isWhole_toDigits (n : Nat) : IsWhole (Nat.toDigits 10 n) where
  filled := Nat.toDigits_ne_nil
  digits := fun _ => Text.isDigit_of_mem_toDigits
  noLeadingZero := fun h => by
    rw [eq_zero_of_head_toDigits n h]
    rfl

theorem spelled_natural (n : Nat) : Spelled (ofValue (.natural n)) (Nat.toDigits 10 n) := by
  have hspelled := @Spelled.number false _ [] [] none none (isWhole_toDigits n) .absent .absent
  rw [numberOf, Nat.ofDigitChars_ten_toDigits] at hspelled
  rwa [signText, if_neg Bool.false_ne_true, List.nil_append, List.append_nil, List.append_nil]
    at hspelled

mutual

/-- A text of a value spells it. -/
theorem spelled_of_written : ∀ {v : JsonValue} {cs : List Char}, Written v cs →
    Spelled (ofValue v) cs
  | _, _, .bool b => .bool b
  | _, _, .natural n => spelled_natural n
  | _, _, .text s => spelled_quoted s.toList
  | _, _, .object hms => .object (spelledMembers_of_written hms)

theorem spelledMembers_of_written : ∀ {first : Bool} {ms : List (String × JsonValue)}
    {cs : List Char}, WrittenMembers first ms cs → SpelledMembers first (ofMembers ms) cs
  | _, _, _, .nil hgap => .nil hgap
  | first, _, _, @WrittenMembers.cons _ key v ms before after gap cs rest hbefore hafter hgap hv
      hms => by
    have hspelled := @SpelledMembers.cons first _ (ofValue v) (ofMembers ms) before after [] gap _
      cs rest hbefore hafter spaces_nil hgap (spelledUnits_quoted key.toList)
      (spelled_of_written hv) (spelledMembers_of_written hms)
    rw [pairUnits_char] at hspelled
    rw [ofMembers, quoted, List.cons_append, List.append_assoc]
    exact hspelled

end

theorem isTextOf_of_written {v : JsonValue} {s : String} (h : Written v s.toList) :
    IsTextOf (ofValue v) s :=
  ⟨[], s.toList, [], spaces_nil, spelled_of_written h, spaces_nil, (List.append_nil _).symm⟩

/-- A text of a value that stands alone is decoded from its tree. -/
theorem parse_of_written {α : Type} (decode : JsonTree → Except JsonError α) {v : JsonValue}
    {s : String} (h : Written v s.toList) : parse decode s = decode (ofValue v) :=
  parse_of_isTextOf decode (isTextOf_of_written h)

/-! ### Records -/

theorem ofMembers_eq_named (ms : List (String × JsonValue)) :
    ofMembers ms = named (ms.map fun m => (m.1, ofValue m.2)) := by
  induction ms with
  | nil => rfl
  | cons m ms ih =>
    rw [ofMembers, ih]
    rfl

/-- A member that is a field of a record, and the first one of its name, is put into the record. -/
theorem readMembersInto_field {σ : Type} {fields : List (Field σ)} {f : Field σ} {key : String}
    {v : JsonValue} {ms : List (String × JsonValue)} {seen : List String} {record next : σ}
    (hfind : fields.find? (fun f => f.name = key) = some f) (hseen : key ∉ seen)
    (hput : f.put (ofValue v) record = .ok next) :
    readMembersInto fields (ofMembers ((key, v) :: ms)) seen record =
      readMembersInto fields (ofMembers ms) (key :: seen) next :=
  readMembersInto_put hfind hseen hput (ofMembers ms)

theorem asText_ofValue (s : String) : asText (ofValue (.text s)) = .ok s := by
  rw [ofValue, asText, String.ofList_toList]

theorem asNatural_ofValue {bound n : Nat} (h : n < bound) :
    asNatural bound (ofValue (.natural n)) = .ok n := by
  rw [ofValue, asNatural, if_pos h]

end JsonTree

end Spreadsheet
