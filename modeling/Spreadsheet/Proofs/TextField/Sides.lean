import Spreadsheet.TextField

/-!
# Spreadsheet.Proofs.TextField.Sides — the characters on both sides of the cursor

`Sides` keeps the characters left of the cursor and those right of it, so that every edit is a
change where the two meet.  Edits of a cell's text and of the file name in a prompt are such
changes: they reach for the byte of the cursor or for that of the character before it, and they
never fail.
-/

namespace Spreadsheet

namespace TextField

/-! ### Edits -/

section Defs

/-- What can be done to a line of text. -/
inductive Edit where
  | insert (c : Char)
  | backspace | delete | left | right | home | toEnd
deriving DecidableEq, Repr

/-- Edits the text of a cell. -/
def inCell? (f : TextField) : Edit → Option TextField
  | .insert c => f.insert? c
  | .backspace => f.backspace?
  | .delete => f.delete?
  | .left => some f.left
  | .right => some f.right
  | .home => some f.home
  | .toEnd => some f.toEnd

/-- Edits the file name in a prompt, where a step of the cursor is a signed number. -/
def inPrompt? (f : TextField) : Edit → Option TextField
  | .left => some (f.move (-1))
  | .right => some (f.move 1)
  | e => f.inCell? e

/-- The characters left and right of a cursor. -/
structure Sides where
  before : List Char
  after : List Char
deriving DecidableEq, Repr

namespace Sides

/-- The cursor behind a text. -/
def ofText (s : String) : Sides := ⟨s.toList, []⟩

/-- The line of text with these sides. -/
def field (z : Sides) : TextField := ⟨z.before ++ z.after, z.before.length⟩

/-- Edits where the sides meet. -/
def edit (z : Sides) : Edit → Sides
  | .insert c => ⟨z.before ++ [c], z.after⟩
  | .backspace => ⟨z.before.dropLast, z.after⟩
  | .delete => ⟨z.before, z.after.tail⟩
  | .left => ⟨z.before.dropLast, z.before.getLast?.toList ++ z.after⟩
  | .right => ⟨z.before ++ z.after.head?.toList, z.after.tail⟩
  | .home => ⟨[], z.before ++ z.after⟩
  | .toEnd => ⟨z.before ++ z.after, []⟩

end Sides

end Defs

namespace Sides

variable (z : Sides)

theorem field_ofText (s : String) : (ofText s).field = TextField.ofText s := by
  simp [field, ofText, TextField.ofText]

/-! ### The bytes that are reached for -/

/-- The sides meet at the byte of the cursor. -/
theorem cutAt?_cursor :
    Text.cutAt? z.field.chars (Text.byteIndex z.field.chars z.field.cursor)
      = some (z.before, z.after) := by
  rw [Text.cutAt?_byteIndex]
  simp [field]

/-- The character before the cursor begins at the byte of its own number. -/
theorem cutAt?_before {z : Sides} {first : List Char} {c : Char} (h : z.before = first ++ [c]) :
    Text.cutAt? z.field.chars (Text.byteIndex z.field.chars (z.field.cursor - 1))
      = some (first, c :: z.after) := by
  rw [Text.cutAt?_byteIndex]
  simp [field, h]

/-! ### One edit -/

theorem insert?_field (c : Char) : z.field.insert? c = some (z.edit (.insert c)).field := by
  rw [insert?, Text.insertAt?_of_cutAt? z.cutAt?_cursor]
  simp [field, edit]

theorem backspace?_field : z.field.backspace? = some (z.edit .backspace).field := by
  rcases List.eq_nil_or_concat z.before with h | ⟨first, c, h⟩
  · simp [backspace?, field, edit, h]
  · rw [List.concat_eq_append] at h
    have hpos : 0 < z.field.cursor := by simp [field, h]
    rw [backspace?, if_pos hpos, Text.removeAt?_of_cutAt? (cutAt?_before h)]
    simp [field, edit, h]

theorem delete?_field : z.field.delete? = some (z.edit .delete).field := by
  cases h : z.after with
  | nil => simp [delete?, field, edit, h]
  | cons c rest =>
    have hlt : z.field.cursor < z.field.chars.length := by simp [field, h]
    have hcut := z.cutAt?_cursor
    rw [h] at hcut
    rw [delete?, if_pos hlt, Text.removeAt?_of_cutAt? hcut]
    simp [field, edit, h]

theorem left_field : z.field.left = (z.edit .left).field := by
  rcases List.eq_nil_or_concat z.before with h | ⟨first, c, h⟩ <;> simp [left, field, edit, h]

theorem right_field : z.field.right = (z.edit .right).field := by
  cases h : z.after <;> simp [right, field, edit, h]

/-- In a cell an edit is one where the sides meet, and it succeeds. -/
theorem inCell?_field (e : Edit) : z.field.inCell? e = some (z.edit e).field := by
  cases e with
  | insert c => exact z.insert?_field c
  | backspace => exact z.backspace?_field
  | delete => exact z.delete?_field
  | left => exact congrArg some z.left_field
  | right => exact congrArg some z.right_field
  | home => rfl
  | toEnd => simp [inCell?, toEnd, field, edit]

end Sides

/-- Signed steps of one character stop at the same ends. -/
theorem move_eq (f : TextField) (h : f.cursor ≤ f.chars.length) :
    f.move (-1) = f.left ∧ f.move 1 = f.right := by
  constructor
  · simp only [move, left, mk.injEq, true_and]
    omega
  · simp only [move, right, mk.injEq, true_and]
    omega

theorem Sides.cursor_le (z : Sides) : z.field.cursor ≤ z.field.chars.length := by
  simp [field]

/-- A prompt takes the same edits in the same way. -/
theorem Sides.inPrompt?_field (z : Sides) (e : Edit) :
    z.field.inPrompt? e = some (z.edit e).field := by
  obtain ⟨hleft, hright⟩ := z.field.move_eq z.cursor_le
  cases e with
  | left => exact congrArg some (hleft.trans z.left_field)
  | right => exact congrArg some (hright.trans z.right_field)
  | insert c => exact z.inCell?_field (.insert c)
  | backspace => exact z.inCell?_field .backspace
  | delete => exact z.inCell?_field .delete
  | home => exact z.inCell?_field .home
  | toEnd => exact z.inCell?_field .toEnd

/-! ### One edit after the other -/

/-- Edits that are changes of the sides one by one are so one after the other. -/
theorem Sides.foldlM_field {take : TextField → Edit → Option TextField}
    (htake : ∀ (z : Sides) (e : Edit), take z.field e = some (z.edit e).field) (z : Sides)
    (es : List Edit) : es.foldlM take z.field = some (es.foldl Sides.edit z).field := by
  induction es generalizing z with
  | nil => rfl
  | cons e es ih =>
    rw [List.foldlM_cons, htake]
    exact ih (z.edit e)

end TextField

end Spreadsheet
