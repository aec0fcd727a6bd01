import Spreadsheet.Proofs.Selection.Activity
import Spreadsheet.Proofs.TextField.Sides
import Spreadsheet.Proofs.Workspace.Saving

/-!
# Spreadsheet.Proofs.Workspace.Typing — keys that go to a line of text

While a cell is edited, keys go to its text until one ends the edit, and with control they do
nothing.  While a prompt asks for a file name, keys go to that.  Both change the text as `Sides`
says, and nothing else: an edit that is dropped leaves no trace but the range it cleared.
-/

namespace Spreadsheet

/-- The edit of a line of text that a key stands for. -/
def Key.edit? : Key → Option TextField.Edit
  | .char c => some (.insert c)
  | .backspace => some .backspace
  | .delete => some .delete
  | .left => some .left
  | .right => some .right
  | .home => some .home
  | .end => some .toEnd
  | _ => none

/-- The key for an edit of a line of text. -/
def TextField.Edit.key : TextField.Edit → Key
  | insert c => .char c
  | backspace => .backspace
  | delete => .delete
  | left => .left
  | right => .right
  | home => .home
  | toEnd => .end

@[simp] theorem TextField.Edit.edit?_key (e : TextField.Edit) : e.key.edit? = some e := by
  cases e <;> rfl

namespace Workspace

open TextField (Edit Sides)

variable {γ : Type}

section Defs

/-- A key with the modifiers held down. -/
abbrev Press := Key × Modifiers

/-- The key is pressed. -/
def Press.happening (k : Press) : Happening γ := .key k.1 k.2

/-- Whether the key ends the edit of a cell. -/
def Press.endsEdit (k : Press) : Bool := (k.1 = .enter || k.1 = .escape) && !k.2.control

/-- The text of an edited cell after a key. -/
def typeInCell (f : TextField) (k : Press) : TextField :=
  if k.2.control then f else (k.1.edit?.bind f.inCell?).getD f

/-- The file name in a prompt after a key, whatever the modifiers. -/
def typeInPrompt (f : TextField) (k : Press) : TextField := (k.1.edit?.bind f.inPrompt?).getD f

end Defs

variable {w : Workspace γ} {entry : CellEdit} {k : Press} {ks : List Press}

/-! ### Edits of the text -/

theorem edit_of_editing (h : w.selection.activity = .editing entry) (f : TextField → TextField) :
    w.edit f
      = { w with
          selection :=
            { w.selection with activity := .editing { entry with field := f entry.field } } } := by
  rw [edit, Selection.edit_of_editing h]

/-- Nothing is done to the text. -/
theorem edit_self (h : w.selection.activity = .editing entry) {f : TextField → TextField}
    (hf : f entry.field = entry.field) : w.edit f = w := by
  rw [edit_of_editing h, hf, ← h]

theorem edit_edit (f g : TextField → TextField) : (w.edit f).edit g = w.edit (g ∘ f) := by
  unfold edit
  cases ha : w.selection.activity <;> simp [Selection.edit, ha]

/-- Without control a key is an edit of the text, or it leaves it as it is. -/
theorem typeInCell_eq (h : k.2.control = false) :
    (typeInCell · k) = fun f => (k.1.edit?.bind f.inCell?).getD f := by
  funext f
  rw [typeInCell, h, if_neg Bool.false_ne_true]

/-- A key that does not end the edit goes to the text. -/
theorem pressKey_editing [Archive γ] (h : w.selection.activity = .editing entry)
    (hk : k.endsEdit = false) : w.happen k.happening = w.edit (typeInCell · k) := by
  have hediting : w.selection.isEditing = true := Selection.isEditing_iff.2 ⟨entry, h⟩
  obtain ⟨key, mods⟩ := k
  show w.pressKey key mods = _
  rw [pressKey, if_pos hediting]
  unfold editingKey
  cases hc : mods.control with
  | true => exact (edit_self h (by simp [typeInCell, hc])).symm
  | false =>
    rw [if_neg Bool.false_ne_true, typeInCell_eq hc]
    cases key
    case enter => simp [Press.endsEdit, hc] at hk
    case escape => simp [Press.endsEdit, hc] at hk
    case up => exact (edit_self h rfl).symm
    case down => exact (edit_self h rfl).symm
    case pageUp => exact (edit_self h rfl).symm
    case pageDown => exact (edit_self h rfl).symm
    case function n => exact (edit_self h rfl).symm
    case other => exact (edit_self h rfl).symm
    all_goals rfl

/-- A key that ends the edit takes its text or drops it. -/
theorem pressKey_ending [Archive γ] (hediting : w.selection.isEditing = true)
    (hk : k.endsEdit = true) :
    w.happen k.happening = w.commitAndStep ∨ w.happen k.happening = w.dropEdit := by
  obtain ⟨key, mods⟩ := k
  simp only [Press.endsEdit, Bool.and_eq_true, Bool.or_eq_true, decide_eq_true_eq,
    Bool.not_eq_true'] at hk
  obtain ⟨hkey, hcontrol⟩ := hk
  have hpress : w.pressKey key mods = w.editingKey key mods := by rw [pressKey, if_pos hediting]
  show w.pressKey key mods = _ ∨ w.pressKey key mods = _
  rw [hpress]
  rcases hkey with rfl | rfl <;> rw [editingKey, hcontrol, if_neg Bool.false_ne_true]
  · exact .inl rfl
  · exact .inr rfl

/-- While no cell is edited, the mode says where keys go. -/
theorem pressKey_idle [Archive γ] (hidle : w.selection.isEditing = false) (key : Key)
    (mods : Modifiers) :
    w.pressKey key mods =
      match w.mode with
      | .normal => w.normalKey key mods
      | .help => w.helpKey key
      | .exportPrompt | .importPrompt => w.promptKey key :=
  if_neg (Bool.eq_false_iff.1 hidle)

theorem pressKey_prompt [Archive γ] (hidle : w.selection.isEditing = false)
    (hmode : w.mode = .exportPrompt ∨ w.mode = .importPrompt) (key : Key) (mods : Modifiers) :
    w.pressKey key mods = w.promptKey key := by
  rcases hmode with hmode | hmode <;> rw [pressKey_idle hidle, hmode]

/-- In a prompt every key but the two that close it goes to the file name. -/
theorem pressKey_prompting [Archive γ] (hidle : w.selection.isEditing = false)
    (hmode : w.mode = .exportPrompt ∨ w.mode = .importPrompt) (henter : k.1 ≠ .enter)
    (hescape : k.1 ≠ .escape) : w.happen k.happening = w.editFileName (typeInPrompt · k) := by
  obtain ⟨key, mods⟩ := k
  show w.pressKey key mods = _
  rw [pressKey_prompt hidle hmode]
  cases key
  case enter => exact absurd rfl henter
  case escape => exact absurd rfl hescape
  all_goals rfl

/-! ### One key after the other -/

section Runs

variable [Archive γ]

/-- Keys that do not end the edit change the text one after the other. -/
theorem live_editing_keys (h : w.selection.activity = .editing entry)
    (hks : ∀ k ∈ ks, k.endsEdit = false) :
    w.live (ks.map Press.happening) = w.edit fun f => ks.foldl typeInCell f := by
  induction ks generalizing w entry with
  | nil => exact (edit_self h rfl).symm
  | cons k ks ih =>
    have hfirst := pressKey_editing h (hks k List.mem_cons_self)
    have hactivity : (w.edit (typeInCell · k)).selection.activity
        = .editing { entry with field := typeInCell entry.field k } := by
      rw [edit_of_editing h]
    rw [List.map_cons, live, List.foldl_cons, hfirst]
    exact (ih hactivity fun k' hk' => hks k' (List.mem_cons_of_mem k hk')).trans (edit_edit _ _)

theorem live_prompting_keys (hidle : w.selection.isEditing = false)
    (hmode : w.mode = .exportPrompt ∨ w.mode = .importPrompt)
    (hks : ∀ k ∈ ks, k.1 ≠ .enter ∧ k.1 ≠ .escape) :
    w.live (ks.map Press.happening) = w.editFileName fun f => ks.foldl typeInPrompt f := by
  induction ks generalizing w with
  | nil => rfl
  | cons k ks ih =>
    obtain ⟨henter, hescape⟩ := hks k List.mem_cons_self
    rw [List.map_cons, live, List.foldl_cons, pressKey_prompting hidle hmode henter hescape]
    exact ih hidle hmode fun k' hk' => hks k' (List.mem_cons_of_mem k hk')

/-! ### An edit that is dropped -/

/-- Enter and F2 begin an edit of the active cell with its text. -/
theorem happen_begin (hmode : w.mode = .normal) (hidle : w.selection.isEditing = false)
    {first : Key} (hfirst : first = .enter ∨ first = .function 2) :
    w.happen (.key first Modifiers.none) = { w with message := none }.editActive := by
  have hnormal : w.pressKey first Modifiers.none = w.normalKey first Modifiers.none := by
    rw [pressKey_idle hidle, hmode]
  show w.pressKey first Modifiers.none = _
  rw [hnormal]
  rcases hfirst with rfl | rfl <;> rfl

/-- Escape drops the edit. -/
theorem happen_escape (h : w.selection.activity = .editing entry) :
    w.happen (.key .escape Modifiers.none)
      = { w with selection := { w.selection with activity := .idle } } := by
  have hediting : w.selection.isEditing = true := Selection.isEditing_iff.2 ⟨entry, h⟩
  have hdrop : w.selection.dropEdit = { w.selection with activity := .idle } := by
    simp [Selection.dropEdit, h]
  show w.pressKey .escape Modifiers.none = _
  rw [pressKey, if_pos hediting]
  exact congrArg (fun selection => { w with selection }) hdrop

/-- Whatever is typed into the active cell, the edit goes on until it is dropped, and nothing else
is touched meanwhile.  When it has been dropped, the range and the message are gone and the user is
doing nothing; everything else is as it was before the edit. -/
theorem dropped_edit_leaves_no_trace (w : Workspace γ) (hmode : w.mode = .normal)
    (hidle : w.selection.isEditing = false) {first : Key}
    (hfirst : first = .enter ∨ first = .function 2) {typed : List Press}
    (htyped : ∀ k ∈ typed, k.1 = .enter ∨ k.1 = .escape → k.2.control = true) :
    let active := w.selection.active
    let text := TextField.ofText (w.grid.textAt active)
    (∀ ks, ks <+: typed →
      w.live (((first, Modifiers.none) :: ks).map Press.happening)
        = { w with
            selection := ⟨active, none, .editing ⟨active, ks.foldl typeInCell text⟩⟩
            message := none }) ∧
    w.live (((first, Modifiers.none) :: (typed ++ [(.escape, Modifiers.none)])).map Press.happening)
      = { w with selection := ⟨active, none, .idle⟩, message := none } := by
  intro active text
  -- Enter and Escape end an edit only without control
  have hgoesOn (k : Press) (hk : k ∈ typed) : k.endsEdit = false := by
    have hcontrol := htyped k hk
    unfold Press.endsEdit
    cases hc : k.2.control <;> simp_all
  have hduring (ks : List Press) (hks : ks <+: typed) :
      w.live (((first, Modifiers.none) :: ks).map Press.happening)
        = { w with
            selection := ⟨active, none, .editing ⟨active, ks.foldl typeInCell text⟩⟩
            message := none } := by
    rw [List.map_cons, live, List.foldl_cons]
    show live (w.happen (.key first Modifiers.none)) _ = _
    rw [happen_begin hmode hidle hfirst]
    exact live_editing_keys rfl fun k hk => hgoesOn k (hks.subset hk)
  refine ⟨hduring, ?_⟩
  let last : CellEdit := ⟨active, typed.foldl typeInCell text⟩
  let v : Workspace γ := { w with selection := ⟨active, none, .editing last⟩, message := none }
  have hv : v.selection.activity = .editing last := rfl
  rw [← List.cons_append, List.map_append, live_append, hduring typed (List.prefix_refl _)]
  exact happen_escape hv

/-- A cell has been filled, and two are selected; then an edit is begun, and with control all the
keys do nothing that would end it, save it or undo the change before. -/
theorem dropped_edit_leaves_no_trace_filledCell :
    let control : Modifiers := ⟨true, false, false⟩
    let shift : Modifiers := ⟨false, true, false⟩
    let w := (Workspace.open smallSheet MemoryArchive.empty .empty).live
      [.key .enter Modifiers.none, .key (.char 'x') Modifiers.none, .key .enter Modifiers.none,
        .key .up shift]
    let typed : List Press :=
      [(.char 'y', Modifiers.none), (.enter, control), (.up, shift), (.escape, control),
        (.char 's', control), (.char 'z', control)]
    w.mode = .normal ∧ w.selection.isEditing = false ∧
      (∀ k ∈ typed, k.1 = .enter ∨ k.1 = .escape → k.2.control = true) ∧
      w.selection.range = some ⟨⟨1, 0⟩, ⟨0, 0⟩⟩ ∧ w.history.canUndo = true ∧
      w.timer.isRunning = true ∧
      (w.live (((.function 2, Modifiers.none) :: typed).map Press.happening)).selection.entry?
        = some ⟨⟨0, 0⟩, ⟨['x', 'y'], 2⟩⟩ ∧
      w.live (((.function 2, Modifiers.none) ::
          (typed ++ [(.escape, Modifiers.none)])).map Press.happening)
        = { w with selection := ⟨⟨0, 0⟩, none, .idle⟩, message := none } := by
  intro control shift w typed
  have hmode : w.mode = .normal := by decide +kernel
  have hidle : w.selection.isEditing = false := by decide +kernel
  have htyped : ∀ k ∈ typed, k.1 = .enter ∨ k.1 = .escape → k.2.control = true := by decide +kernel
  have hactive : w.selection.active = ⟨0, 0⟩ := by decide +kernel
  obtain ⟨-, hdropped⟩ := dropped_edit_leaves_no_trace w hmode hidle (.inr rfl) htyped
  rw [hactive] at hdropped
  exact ⟨hmode, hidle, htyped, by decide +kernel, by decide +kernel, by decide +kernel,
    by decide +kernel, hdropped⟩

/-! ### Edits in a cell and in a prompt -/

/-- The keys for these edits, without modifiers. -/
def keysOf (es : List Edit) : List Press := es.map fun e => (e.key, Modifiers.none)

/-- Keys that are changes of the sides one by one are so one after the other. -/
theorem foldl_keysOf {type : TextField → Press → TextField}
    (htype : ∀ (z : Sides) (e : Edit), type z.field (e.key, Modifiers.none) = (z.edit e).field)
    (z : Sides) (es : List Edit) :
    (keysOf es).foldl type z.field = (es.foldl Sides.edit z).field := by
  induction es generalizing z with
  | nil => rfl
  | cons e es ih =>
    rw [keysOf, List.map_cons, List.foldl_cons, htype]
    exact ih (z.edit e)

theorem typeInCell_field (z : Sides) (e : Edit) :
    typeInCell z.field (e.key, Modifiers.none) = (z.edit e).field := by
  simp [typeInCell, Modifiers.none, z.inCell?_field]

theorem typeInPrompt_field (z : Sides) (e : Edit) :
    typeInPrompt z.field (e.key, Modifiers.none) = (z.edit e).field := by
  simp [typeInPrompt, z.inPrompt?_field]

end Runs

/-- From any text, any edits change the text of a cell, a file name in a prompt and the two sides of
the cursor in the same way, and none of them fails.  The cursor stays in the text; its byte is where
the sides meet, and the byte of the number before is where the last character of the first side
begins.  So do the keys for these edits, and they change nothing else. -/
theorem edits_follow_sides (s : String) (es : List Edit) :
    let z := es.foldl Sides.edit (Sides.ofText s)
    let f := z.field
    let here := Text.byteIndex f.chars f.cursor
    let back := Text.byteIndex f.chars (f.cursor - 1)
    (es.foldlM TextField.inCell? (TextField.ofText s) = some f ∧
      es.foldlM TextField.inPrompt? (TextField.ofText s) = some f) ∧
    (f.chars = z.before ++ z.after ∧ f.cursor = z.before.length ∧ f.cursor ≤ f.chars.length) ∧
    ((⟨here⟩ : String.Pos.Raw).IsValid f.text ∧
      Text.cutAt? f.chars here = some (z.before, z.after)) ∧
    (∀ first c, z.before = first ++ [c] →
      (⟨back⟩ : String.Pos.Raw).IsValid f.text ∧
        Text.cutAt? f.chars back = some (first, c :: z.after)) ∧
    ∀ (γ : Type) [Archive γ] (w : Workspace γ),
      (∀ entry, w.selection.activity = .editing entry → entry.field = TextField.ofText s →
        w.live ((keysOf es).map Press.happening)
          = { w with
              selection := { w.selection with activity := .editing { entry with field := f } } }) ∧
      (w.selection.isEditing = false → w.mode = .exportPrompt ∨ w.mode = .importPrompt →
        w.fileName = TextField.ofText s →
        w.live ((keysOf es).map Press.happening) = { w with fileName := f }) := by
  intro z f here back
  have hstart := Sides.field_ofText s
  refine ⟨?_, ⟨rfl, rfl, z.cursor_le⟩, ⟨Text.isValid_byteIndex _ _, z.cutAt?_cursor⟩,
    fun first c h => ⟨Text.isValid_byteIndex _ _, Sides.cutAt?_before h⟩, fun γ _ w => ⟨?_, ?_⟩⟩
  · rw [← hstart]
    exact ⟨Sides.foldlM_field Sides.inCell?_field _ es,
      Sides.foldlM_field Sides.inPrompt?_field _ es⟩
  · intro entry hentry hfield
    -- the keys for edits reach the text and nothing else
    have hkeys : ∀ k ∈ keysOf es, k.endsEdit = false := by
      intro k hk
      obtain ⟨e, -, rfl⟩ := List.mem_map.1 hk
      cases e <;> rfl
    rw [live_editing_keys hentry hkeys, edit_of_editing hentry, hfield, ← hstart,
      foldl_keysOf typeInCell_field]
  · intro hidle hmode hfield
    have hkeys : ∀ k ∈ keysOf es, k.1 ≠ .enter ∧ k.1 ≠ .escape := by
      intro k hk
      obtain ⟨e, -, rfl⟩ := List.mem_map.1 hk
      cases e <;> exact ⟨nofun, nofun⟩
    rw [live_prompting_keys hidle hmode hkeys, editFileName, hfield, ← hstart,
      foldl_keysOf typeInPrompt_field]

/-- Characters of one to four bytes are typed into a cell; then some of them are removed, and others
put in. -/
theorem edits_follow_sides_mixed :
    let start := Workspace.open smallSheet MemoryArchive.empty .empty
    let es : List Edit := [.left, .backspace, .insert 'ß', .delete, .home, .right]
    let typing := start.live
      ([.key .enter Modifiers.none] ++
        ['a', 'é', '€', '😀'].map fun c => .key (.char c) Modifiers.none)
    let asking := start.live [.key (.char 'l') ⟨true, false, false⟩]
    let entry : CellEdit := ⟨⟨0, 0⟩, TextField.ofText "aé€😀"⟩
    es.foldlM TextField.inCell? entry.field = some ⟨['a', 'é', 'ß'], 1⟩ ∧
      es.foldlM TextField.inPrompt? entry.field = some ⟨['a', 'é', 'ß'], 1⟩ ∧
      typing.selection.activity = .editing entry ∧
      (typing.live ((keysOf es).map Press.happening)).selection.activity
        = .editing ⟨⟨0, 0⟩, ⟨['a', 'é', 'ß'], 1⟩⟩ ∧
      asking.selection.isEditing = false ∧ asking.mode = .importPrompt ∧
      asking.fileName = TextField.ofText "data.csv" ∧
      (asking.live ((keysOf es).map Press.happening)).fileName.text = "data.cß" := by
  intro start es typing asking entry
  have hsides : (es.foldl Sides.edit (Sides.ofText "aé€😀")).field = ⟨['a', 'é', 'ß'], 1⟩ := by
    decide +kernel
  have hentry : typing.selection.activity = .editing entry := by decide +kernel
  have hidle : asking.selection.isEditing = false := by decide +kernel
  have hmode : asking.mode = .importPrompt := by decide +kernel
  have hname : asking.fileName = TextField.ofText "data.csv" := by decide +kernel
  obtain ⟨⟨hcell, hprompt⟩, -, -, -, hkeys⟩ := edits_follow_sides "aé€😀" es
  obtain ⟨-, -, -, -, hkeys'⟩ := edits_follow_sides "data.csv" es
  have htyped := (hkeys MemoryArchive typing).1 entry hentry rfl
  have hasked := (hkeys' MemoryArchive asking).2 hidle (.inr hmode) hname
  rw [hsides] at hcell hprompt htyped
  refine ⟨hcell, hprompt, hentry, ?_, hidle, hmode, hname, ?_⟩
  · rw [htyped]
  · rw [hasked]
    decide +kernel

end Workspace

end Spreadsheet
