import Spreadsheet.Proofs.Workspace.Selecting
import Spreadsheet.Proofs.Workspace.Typing

/-!
# Spreadsheet.Proofs.Workspace.Focus — who takes the keys

Keys go to the text of a cell, to the help text, to a prompt or to the grid, and never to two of
them: a cell is edited only while nothing lies over the grid, and there is a file name only while a
prompt asks for it.  `Focused` says so, and that both lines of text have their cursor inside; it is
kept by everything that happens.  What lies over the grid keeps the keys and the pointer from the
sheet.
-/

namespace Spreadsheet

namespace TextField

/-- The cursor stands in the text. -/
def IsSound (f : TextField) : Prop := f.cursor ≤ f.chars.length

variable {f : TextField}

theorem isSound_ofText (s : String) : (ofText s).IsSound := Nat.le_refl _

/-- A sound line of text has its two sides. -/
theorem IsSound.exists_sides (h : f.IsSound) : ∃ z : Sides, f = z.field := by
  refine ⟨⟨f.chars.take f.cursor, f.chars.drop f.cursor⟩, ?_⟩
  rw [Sides.field, List.take_append_drop, List.length_take_of_le h]

/-- Edits that are changes of the sides keep the cursor in the text. -/
theorem IsSound.edited (h : f.IsSound) {take : TextField → Edit → Option TextField}
    (htake : ∀ (z : Sides) (e : Edit), take z.field e = some (z.edit e).field)
    (edit? : Option Edit) : ((edit?.bind (take f)).getD f).IsSound := by
  obtain ⟨z, rfl⟩ := h.exists_sides
  cases edit? with
  | none => exact h
  | some e =>
    rw [Option.bind_some, htake]
    exact (z.edit e).cursor_le

end TextField

namespace Workspace

open TextField (Sides)

variable {γ : Type}

theorem isSound_typeInCell {f : TextField} (h : f.IsSound) (k : Press) :
    (typeInCell f k).IsSound := by
  unfold typeInCell
  split
  · exact h
  · exact h.edited Sides.inCell?_field k.1.edit?

theorem isSound_typeInPrompt {f : TextField} (h : f.IsSound) (k : Press) :
    (typeInPrompt f k).IsSound := h.edited Sides.inPrompt?_field k.1.edit?

/-! ### The file name and the size of the window -/

section Defs

variable (w : Workspace γ)

/-- The file name in the prompt after an action. -/
def fileNameAfter : Action γ → TextField
  | .askExport => TextField.ofText w.exportName
  | .askImport => TextField.ofText "data.csv"
  | .closePrompt | .confirm => TextField.empty
  | .editFileName f => f w.fileName
  | _ => w.fileName

/-- The numbers of rows and columns shown after an action. -/
def viewAfter : Action γ → Nat × Nat
  | .resize rows cols => (max rows 1, max cols 1)
  | _ => (w.viewRows, w.viewCols)

end Defs

variable {w w' w'' : Workspace γ}

theorem act_fileName [Archive γ] (w : Workspace γ) (a : Action γ) :
    (w.act a).fileName = w.fileNameAfter a := by
  by_cases htouches : Part.prompt ∈ a.touches
  · cases a <;> first | rfl | simp [Action.touches] at htouches
  · rw [(touchesOnly_act w a).same .prompt htouches]
    cases a <;> first | rfl | simp [Action.touches] at htouches

theorem act_view [Archive γ] (w : Workspace γ) (a : Action γ) :
    ((w.act a).viewRows, (w.act a).viewCols) = w.viewAfter a := by
  by_cases htouches : Part.room ∈ a.touches
  · cases a <;> first | rfl | simp [Action.touches] at htouches
  · obtain ⟨hrows, hcols⟩ := (touchesOnly_act w a).same .room htouches
    rw [hrows, hcols]
    cases a <;> first | rfl | simp [Action.touches] at htouches

/-! ### The focus -/

/-- Keys go to one consumer, and its line of text has the cursor inside: a cell is edited only while
nothing lies over the grid, and without a prompt there is no file name. -/
structure Focused (w : Workspace γ) : Prop where
  editing : w.selection.isEditing = true → w.mode = .normal
  prompt : w.mode = .normal ∨ w.mode = .help → w.fileName = TextField.empty
  fileName : w.fileName.IsSound
  entry : ∀ entry, w.selection.activity = .editing entry → entry.field.IsSound
  view : 1 ≤ w.viewRows ∧ 1 ≤ w.viewCols

namespace Action

/-- Whether an action edits a line of text. -/
def isLineEdit : Action γ → Bool
  | .edit _ | .editFileName _ => true
  | _ => false

end Action

theorem focused_fresh (o : Options) (archive : γ) (files : FileSystem) (grid : Grid)
    (dims : Dimensions) (message : Option String) :
    (fresh o archive files grid dims message).Focused where
  editing := nofun
  prompt := fun _ => rfl
  fileName := Nat.le_refl _
  entry := nofun
  view := ⟨Nat.le_add_left 1 19, Nat.le_add_left 1 7⟩

variable {a : Action γ}

theorem isSound_fileNameAfter (h : w.fileName.IsSound) (hline : a.isLineEdit = false) :
    (w.fileNameAfter a).IsSound := by
  cases a with
  | editFileName f => cases hline
  | askExport => exact TextField.isSound_ofText _
  | askImport => exact TextField.isSound_ofText _
  | closePrompt => exact Nat.le_refl _
  | confirm => exact Nat.le_refl _
  | _ => exact h

theorem one_le_viewAfter (h : 1 ≤ w.viewRows ∧ 1 ≤ w.viewCols) (a : Action γ) :
    1 ≤ (w.viewAfter a).1 ∧ 1 ≤ (w.viewAfter a).2 := by
  cases a with
  | resize rows cols => exact ⟨Nat.le_max_right _ _, Nat.le_max_right _ _⟩
  | _ => exact h

/-- After an action that edits no text, a cell is edited if it was before, or the edit has just
begun. -/
theorem editing_after (hline : a.isLineEdit = false) {entry : CellEdit}
    (h : (w.selectionAfter a).activity = .editing entry) :
    w.selection.activity = .editing entry ∨
      a = .editActive ∧ entry.field = TextField.ofText (w.grid.textAt w.selection.active) := by
  rcases activity_after w a with hsame | rfl | ⟨f, rfl⟩ | ⟨p, rfl, hdrag⟩
  · rcases hsame with hsame | hidle
    · exact .inl (hsame ▸ h)
    · rw [hidle] at h
      cases h
  · cases h
    exact .inr ⟨rfl, rfl⟩
  · cases hline
  · rw [hdrag] at h
    cases h

/-- Keys in the grid and over the help text edit no text. -/
theorem isLineEdit_of_isTyped (hidle : w.selection.isEditing = false)
    (hmode : w.mode = .normal ∨ w.mode = .help) (ha : w.isTyped a = true) :
    a.isLineEdit = false := by
  cases a with
  | edit f => simp [isTyped, hidle] at ha
  | editFileName f => rcases hmode with hmode | hmode <;> simp [isTyped, hmode] at ha
  | _ => rfl

namespace Focused

theorem edit (h : w.Focused) {f : TextField → TextField}
    (hf : ∀ field : TextField, field.IsSound → (f field).IsSound) : (w.edit f).Focused := by
  cases hactivity : w.selection.activity with
  | editing entry =>
    rw [edit_of_editing hactivity]
    refine ⟨fun _ => h.editing (Selection.isEditing_iff.2 ⟨entry, hactivity⟩), h.prompt, h.fileName,
      ?_, h.view⟩
    rintro _ ⟨⟩
    exact hf _ (h.entry entry hactivity)
  | _ =>
    have hsame : w.edit f = w := by simp [Workspace.edit, Selection.edit, hactivity]
    rw [hsame]
    exact h

theorem editFileName (h : w.Focused) (hmode : w.mode = .exportPrompt ∨ w.mode = .importPrompt)
    {f : TextField → TextField} (hf : ∀ field : TextField, field.IsSound → (f field).IsSound) :
    (w.editFileName f).Focused :=
  { h with
    prompt := fun hover => by
      change w.mode = .normal ∨ w.mode = .help at hover
      rcases hmode with hmode | hmode <;> simp [hmode] at hover
    fileName := hf _ h.fileName }

variable [Archive γ]

/-- An action that edits no text keeps the focus if it lays nothing over an edit and leaves no file
name behind. -/
theorem act (h : w.Focused) (hline : a.isLineEdit = false)
    (hfree : w.selection.isEditing = true ∨ a = .editActive → w.modeAfter a = .normal)
    (hquiet : w.modeAfter a = .normal ∨ w.modeAfter a = .help →
      w.fileNameAfter a = TextField.empty) : (w.act a).Focused := by
  have hselection := act_selection w a
  have hmode := act_mode w a
  have hname := act_fileName w a
  have hview := act_view w a
  have hone := one_le_viewAfter h.view a
  rw [← hview] at hone
  -- an edit goes on or has just begun, and there is nothing over the grid either way
  refine ⟨fun hediting => ?_, fun hover => ?_, ?_, fun entry hentry => ?_, hone⟩
  · obtain ⟨entry, hentry⟩ := Selection.isEditing_iff.1 hediting
    rw [hselection] at hentry
    rw [hmode]
    rcases editing_after hline hentry with hbefore | ⟨hbegun, -⟩
    · exact hfree (.inl (Selection.isEditing_iff.2 ⟨entry, hbefore⟩))
    · exact hfree (.inr hbegun)
  · rw [hmode] at hover
    rw [hname, hquiet hover]
  · rw [hname]
    exact isSound_fileNameAfter h.fileName hline
  · rw [hselection] at hentry
    rcases editing_after hline hentry with hbefore | ⟨-, htext⟩
    · exact h.entry entry hbefore
    · rw [htext]
      exact TextField.isSound_ofText _

/-- What begins no edit and changes neither mode nor file name keeps the focus. -/
theorem act_still (h : w.Focused) (hline : a.isLineEdit = false) (hbegin : a ≠ .editActive)
    (hmode : w.modeAfter a = w.mode) (hname : w.fileNameAfter a = w.fileName) :
    (w.act a).Focused := by
  refine h.act hline (fun hediting => ?_) fun hover => ?_
  · rw [hmode]
    exact h.editing (hediting.resolve_right hbegin)
  · rw [hmode] at hover
    rw [hname]
    exact h.prompt hover

/-- What keys can do as things stand keeps the focus. -/
theorem act_typed (h : w.Focused) (ha : w.isTyped a = true) (hline : a.isLineEdit = false) :
    (w.act a).Focused := by
  refine h.act hline (fun hediting => ?_) fun hover => ?_
  -- what lays something over the grid is typed only while no cell is edited
  · cases a <;> simp_all [isTyped, modeAfter, h.editing]
  -- what asks for a file name leaves a prompt over the grid
  · cases a <;> simp_all [isTyped, modeAfter, fileNameAfter, h.prompt, Action.isLineEdit]

/-! ### Keys and pointer -/

/-- A workspace in focus is in focus after what comes of a key in the grid or over the help text. -/
theorem reached (h : w.Focused) (hreached : ReachedByKey w w')
    (hnone : ∀ a, w.isTyped a = true → a.isLineEdit = false) : w'.Focused := by
  rcases hreached with rfl | ⟨a, ha, rfl | ⟨hclear, rfl⟩⟩
  · exact h
  · exact h.act_typed ha (hnone a ha)
  · have hcleared : (w.act .clearMessage).Focused := h.act_typed hclear rfl
    have ha' : (w.act .clearMessage).isTyped a = true := by
      rw [← ha]
      cases a <;> rfl
    exact hcleared.act_typed ha' (hnone a ha)

theorem pressKey_prompt (h : w.Focused) (hidle : w.selection.isEditing = false)
    (hmode : w.mode = .exportPrompt ∨ w.mode = .importPrompt) (key : Key) (mods : Modifiers) :
    (w.pressKey key mods).Focused := by
  have htyped (a : Action γ) (ha : a = .confirm ∨ a = .closePrompt) : w.isTyped a = true := by
    rcases ha with rfl | rfl <;> rcases hmode with hmode | hmode <;> simp [isTyped, hidle, hmode]
  by_cases henter : key = .enter
  · rw [Workspace.pressKey_prompt hidle hmode, henter]
    exact h.act_typed (htyped .confirm (.inl rfl)) rfl
  by_cases hescape : key = .escape
  · rw [Workspace.pressKey_prompt hidle hmode, hescape]
    exact h.act_typed (htyped .closePrompt (.inr rfl)) rfl
  show (w.happen (Press.happening (key, mods))).Focused
  rw [pressKey_prompting hidle hmode henter hescape]
  exact h.editFileName hmode fun f hf => isSound_typeInPrompt hf (key, mods)

theorem pressKey (h : w.Focused) (key : Key) (mods : Modifiers) :
    (w.pressKey key mods).Focused := by
  let k : Press := (key, mods)
  show (w.happen k.happening).Focused
  -- during an edit the keys go to it, otherwise to what lies over the grid
  cases hediting : w.selection.isEditing with
  | true =>
    obtain ⟨entry, hentry⟩ := Selection.isEditing_iff.1 hediting
    cases hends : k.endsEdit with
    | true =>
      rcases pressKey_ending hediting hends with hkey | hkey <;> rw [hkey]
      · exact h.act_typed (a := .commitAndStep) hediting rfl
      · exact h.act_typed (a := .dropEdit) (by simp [isTyped, hediting]) rfl
    | false =>
      rw [pressKey_editing hentry hends]
      exact h.edit fun f hf => isSound_typeInCell hf k
  | false =>
    show (w.pressKey key mods).Focused
    cases hmode : w.mode with
    | normal =>
      rw [pressKey_idle hediting, hmode]
      exact h.reached (normalKey_reached hediting hmode key mods) fun a =>
        isLineEdit_of_isTyped hediting (.inl hmode)
    | help =>
      rw [pressKey_idle hediting, hmode]
      exact h.reached (helpKey_reached hediting hmode key) fun a =>
        isLineEdit_of_isTyped hediting (.inr hmode)
    | exportPrompt => exact h.pressKey_prompt hediting (.inl hmode) key mods
    | importPrompt => exact h.pressKey_prompt hediting (.inr hmode) key mods

theorem usePointer (h : w.Focused) (e : PointerEvent) (width height : Nat) :
    (w.usePointer e width height).Focused := by
  rw [usePointer_eq]
  cases ha : w.pointed? e width height with
  | none => exact h
  | some a =>
    rw [Option.elim_some]
    obtain ⟨-, ⟨p, -, -, rfl⟩ | ⟨p, -, -, rfl⟩ | ⟨-, rfl⟩ | ⟨-, rfl⟩ | ⟨-, rfl⟩ | ⟨-, -, rfl⟩⟩ :=
      pointed?_eq_some ha <;> exact h.act_still rfl nofun rfl rfl

theorem happen (h : w.Focused) (x : Happening γ) : (w.happen x).Focused := by
  cases x with
  | key key mods => exact h.pressKey key mods
  | pointer e width height => exact h.usePointer e width height
  | view rows cols => exact h.act_still (a := .resize rows cols) rfl nofun rfl rfl
  | tick now => exact h.act_still (a := .tick now) rfl nofun rfl rfl
  | outside archive files clipboard clock =>
    exact h.act_still (a := .outside archive files clipboard clock) rfl nofun rfl rfl

theorem live (h : w.Focused) (hs : List (Happening γ)) : (w.live hs).Focused :=
  List.foldlRecOn hs Workspace.happen h fun _ hv x _ => hv.happen x

end Focused

/-! ### What lies over the grid -/

/-- A key over the help text closes it or turns to another line. -/
theorem helpKey_changes (w : Workspace γ) (key : Key) :
    ∃ mode line, w.helpKey key = { w with mode, helpLine := line } := by
  unfold helpKey
  split <;> exact ⟨_, _, rfl⟩

/-- A key in a prompt that does not confirm it closes it or changes the file name. -/
theorem promptKey_changes (w : Workspace γ) {key : Key} (hkey : key ≠ .enter) :
    ∃ mode fileName, w.promptKey key = { w with mode, fileName } := by
  unfold promptKey
  split
  · exact absurd rfl hkey
  all_goals exact ⟨_, _, rfl⟩

/-- Whatever happens after a sheet has been opened, keys go to one consumer.  Over the help text
neither keys nor the pointer change anything but what is shown of it; in a prompt the pointer
changes nothing, and the keys nothing but the file name until the prompt is confirmed. -/
theorem live_focused [Archive γ] (o : Options) (archive : γ) (files : FileSystem)
    (hs : List (Happening γ)) :
    let w := (Workspace.open o archive files).live hs
    w.Focused ∧
    (w.mode = .help → ∀ key mods, ∃ mode line,
      w.pressKey key mods = { w with mode, helpLine := line }) ∧
    (w.mode ≠ .normal → ∀ e width height, w.usePointer e width height = w) ∧
    (w.mode = .exportPrompt ∨ w.mode = .importPrompt → ∀ key mods, key ≠ .enter →
      ∃ mode fileName, w.pressKey key mods = { w with mode, fileName }) := by
  intro w
  have hfocused : w.Focused := by
    obtain ⟨grid, dims, message, stopped, hopen⟩ := open_eq o archive files
    have hstart : (Workspace.open o archive files).Focused := by
      rw [hopen]
      exact { focused_fresh o archive files grid dims message with }
    exact hstart.live hs
  -- where something lies over the grid, no edit is in progress
  have hidle (hmode : w.mode ≠ .normal) : w.selection.isEditing = false :=
    Bool.eq_false_iff.2 fun hediting => hmode (hfocused.editing hediting)
  refine ⟨hfocused, fun hmode key mods => ?_, fun hmode e width height => ?_,
    fun hmode key mods hkey => ?_⟩
  · rw [pressKey_idle (hidle (by simp [hmode])), hmode]
    exact helpKey_changes w key
  · rw [usePointer_eq, pointed?, if_neg hmode]
    rfl
  · have hover : w.mode ≠ .normal := by rcases hmode with hmode | hmode <;> simp [hmode]
    rw [Workspace.pressKey_prompt (hidle hover) hmode]
    exact promptKey_changes w hkey

/-- With a save pending and a cell selected, the help text is shown, or an export is asked for: the
keys that undo and save do nothing of the kind, and the mouse selects nothing. -/
theorem live_focused_overlays :
    let control : Modifiers := ⟨true, false, false⟩
    let pressed : PointerEvent := ⟨.press, 10, 5, Modifiers.none⟩
    let changed : List (Happening MemoryArchive) :=
      [.key .enter Modifiers.none, .key (.char 'x') Modifiers.none, .key .enter Modifiers.none]
    let start := Workspace.open smallSheet MemoryArchive.empty .empty
    let help := start.live (changed ++ [.key (.function 1) Modifiers.none])
    let prompt := start.live (changed ++ [.key (.char 'e') control])
    (help.mode = .help ∧ help.timer.isRunning = true ∧ help.history.canUndo = true) ∧
    (∃ mode line, help.pressKey (.char 'z') control = { help with mode, helpLine := line }) ∧
    help.usePointer pressed 80 24 = help ∧
    (prompt.mode = .exportPrompt ∧ prompt.fileName = TextField.ofText "sheet.csv") ∧
    (∃ mode fileName, prompt.pressKey (.char 's') control = { prompt with mode, fileName }) ∧
    prompt.usePointer pressed 80 24 = prompt := by
  intro control pressed changed start help prompt
  have hhelp : help.mode = .help := by decide +kernel
  have hprompt : prompt.mode = .exportPrompt := by decide +kernel
  obtain ⟨-, hkeys, hpointer, -⟩ :=
    live_focused smallSheet MemoryArchive.empty .empty
      (changed ++ [.key (.function 1) Modifiers.none])
  obtain ⟨-, -, hpointer', hkeys'⟩ :=
    live_focused smallSheet MemoryArchive.empty .empty (changed ++ [.key (.char 'e') control])
  have hnormal : help.mode ≠ .normal := by simp [hhelp]
  have hnormal' : prompt.mode ≠ .normal := by simp [hprompt]
  exact ⟨⟨hhelp, by decide +kernel, by decide +kernel⟩, hkeys hhelp (.char 'z') control,
    hpointer hnormal pressed 80 24, ⟨hprompt, by decide +kernel⟩,
    hkeys' (.inl hprompt) (.char 's') control nofun, hpointer' hnormal' pressed 80 24⟩

end Workspace

end Spreadsheet
