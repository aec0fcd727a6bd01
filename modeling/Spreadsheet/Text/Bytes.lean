/-!
# Spreadsheet.Text.Bytes — the bytes at which characters begin

A character takes one to four bytes of UTF-8.  A text can be cut at its boundaries, which are the
bytes at which a character begins and its end; characters are put in and removed there and nowhere
else.
-/

namespace Spreadsheet.Text

/-- The byte at which character number `i` begins, or the end of the text if it has no such
character. -/
def byteIndex : List Char → Nat → Nat
  | c :: cs, i + 1 => c.utf8Size + byteIndex cs i
  | _, _ => 0

/-- The characters before a byte and those from it on, if the byte is a boundary. -/
def cutAt? : List Char → Nat → Option (List Char × List Char)
  | cs, 0 => some ([], cs)
  | [], _ + 1 => none
  | c :: cs, n + 1 =>
    if c.utf8Size ≤ n + 1 then
      (cutAt? cs (n + 1 - c.utf8Size)).map fun (before, after) => (c :: before, after)
    else none

/-- Puts a character in at a byte, if that is a boundary. -/
def insertAt? (cs : List Char) (n : Nat) (c : Char) : Option (List Char) :=
  (cutAt? cs n).map fun (before, after) => before ++ c :: after

/-- Removes the character that begins at a byte, if one does. -/
def removeAt? (cs : List Char) (n : Nat) : Option (List Char) :=
  match cutAt? cs n with
  | some (before, _ :: after) => some (before ++ after)
  | _ => none

/-! ### The byte of a character -/

variable {cs before after : List Char} {c : Char} {n : Nat}

@[simp] theorem byteIndex_zero (cs : List Char) : byteIndex cs 0 = 0 := by
  cases cs <;> rfl

/-- The character begins behind the bytes of those before it. -/
theorem byteIndex_eq (cs : List Char) (i : Nat) :
    byteIndex cs i = (String.ofList (cs.take i)).utf8ByteSize := by
  induction cs generalizing i with
  | nil => simp [byteIndex]
  | cons c cs ih =>
    cases i with
    | zero => simp
    | succ i =>
      rw [byteIndex, ih, List.take_succ_cons, String.ofList_cons, String.utf8ByteSize_append,
        String.utf8ByteSize_singleton]

theorem cutAt?_cons_utf8Size (c : Char) (cs : List Char) (n : Nat) :
    cutAt? (c :: cs) (c.utf8Size + n)
      = (cutAt? cs n).map fun (before, after) => (c :: before, after) := by
  have hpos := c.utf8Size_pos
  obtain ⟨m, hm⟩ : ∃ m, c.utf8Size + n = m + 1 := ⟨c.utf8Size + n - 1, by omega⟩
  have hrest : m + 1 - c.utf8Size = n := by omega
  rw [hm, cutAt?, if_pos (by omega), hrest]

/-- That byte is a boundary: a cut there parts the characters at that number. -/
theorem cutAt?_byteIndex (cs : List Char) (i : Nat) :
    cutAt? cs (byteIndex cs i) = some (cs.take i, cs.drop i) := by
  induction cs generalizing i with
  | nil => simp [byteIndex, cutAt?]
  | cons c cs ih =>
    cases i with
    | zero => simp [cutAt?]
    | succ i =>
      rw [byteIndex, cutAt?_cons_utf8Size, ih]
      rfl

/-- A cut parts the text, and the byte is where the second part begins. -/
theorem cutAt?_eq_some_iff :
    cutAt? cs n = some (before, after) ↔
      before ++ after = cs ∧ (String.ofList before).utf8ByteSize = n := by
  constructor
  · intro h
    induction cs generalizing n before with
    | nil =>
      cases n with
      | zero =>
        obtain ⟨rfl, rfl⟩ := Prod.mk.inj (Option.some.inj h)
        exact ⟨rfl, rfl⟩
      | succ n => cases h
    | cons c cs ih =>
      cases n with
      | zero =>
        obtain ⟨rfl, rfl⟩ := Prod.mk.inj (Option.some.inj h)
        exact ⟨rfl, rfl⟩
      | succ n =>
        rw [cutAt?] at h
        split at h
        · -- the first character is whole, and the cut lies behind it
          obtain ⟨⟨first, rest⟩, hcut, heq⟩ := Option.map_eq_some_iff.1 h
          obtain ⟨rfl, rfl⟩ := Prod.mk.inj heq
          obtain ⟨rfl, hsize⟩ := ih hcut
          refine ⟨rfl, ?_⟩
          rw [String.ofList_cons, String.utf8ByteSize_append, String.utf8ByteSize_singleton]
          omega
        · cases h
  · rintro ⟨rfl, rfl⟩
    have h := cutAt?_byteIndex (before ++ after) before.length
    rwa [byteIndex_eq, List.take_left, List.drop_left] at h

/-- The boundaries are the positions of the text in UTF-8. -/
theorem isSome_cutAt?_iff :
    (cutAt? cs n).isSome = true ↔ (⟨n⟩ : String.Pos.Raw).IsValid (String.ofList cs) := by
  rw [String.Pos.Raw.isValid_ofList, Option.isSome_iff_exists]
  constructor
  · rintro ⟨⟨before, after⟩, h⟩
    obtain ⟨rfl, rfl⟩ := cutAt?_eq_some_iff.1 h
    exact ⟨before.length, by rw [List.take_left]⟩
  · rintro ⟨i, hi⟩
    exact ⟨_, cutAt?_eq_some_iff.2 ⟨List.take_append_drop i cs, hi.symm⟩⟩

theorem isValid_byteIndex (cs : List Char) (i : Nat) :
    (⟨byteIndex cs i⟩ : String.Pos.Raw).IsValid (String.ofList cs) := by
  rw [← isSome_cutAt?_iff, cutAt?_byteIndex, Option.isSome_some]

/-! ### Characters put in and removed -/

theorem insertAt?_of_cutAt? (h : cutAt? cs n = some (before, after)) (c : Char) :
    insertAt? cs n c = some (before ++ c :: after) := by
  rw [insertAt?, h, Option.map_some]

theorem removeAt?_of_cutAt? (h : cutAt? cs n = some (before, c :: after)) :
    removeAt? cs n = some (before ++ after) := by
  rw [removeAt?, h]

end Spreadsheet.Text
