import Mathlib.Tactic.SplitIfs
import Spreadsheet.Input.Session

/-!
# Spreadsheet.Proofs.Workspace.Action — everything that is done to a workspace

An action is a call of one of the workspace's operations, or something that happens around it: the
archive, the files and the clipboard may change from outside, and time passes.  `run` takes actions
one after the other.  Every key and every use of the pointer comes to at most one gesture, so that
what is proved of all runs of actions holds of all sessions.
-/

namespace Spreadsheet

namespace Workspace

/-- What can be done to a workspace. -/
inductive Action (γ : Type) where
  | editActive
  | edit (f : TextField → TextField)
  | commitAndStep
  | dropEdit
  | step (d : Direction) (extend : Bool)
  | chooseAll
  | press (p : Position) (shift : Bool)
  | drag (p : Position)
  | release
  | clearRegion
  | copy
  | cut
  | paste
  | undo
  | redo
  | appendRow
  | appendCol
  | saveAtOnce
  | askExport
  | askImport
  | closePrompt
  | confirm
  | editFileName (f : TextField → TextField)
  | exportTable (path : String)
  | importTable (path : String)
  | clearMessage
  | showHelp
  | turnHelp (line : Nat)
  | leaveHelp
  /-- A pending save is made if it is due at time `now`. -/
  | tick (now : Nat)
  | resize (rows cols : Nat)
  /-- A sum leaves the words, or columns cannot be placed. -/
  | stop
  /-- The world around the workspace changes. -/
  | outside (archive : γ) (files : FileSystem) (clipboard : Clipboard) (clock : Nat)

namespace Action

variable {γ : Type}

/-- Whether the user does this with the keyboard or the pointer. -/
def isGesture : Action γ → Bool
  | tick _ | resize .. | outside .. => false
  | _ => true

end Action

variable {γ : Type}

/-! ### What can be done with keys and pointer -/

/-- Whether a key can do this as things stand: keys go to the edit in progress if there is one, and
otherwise to what the mode says. -/
def isTyped (w : Workspace γ) : Action γ → Bool
  | .edit _ | .commitAndStep => w.selection.isEditing
  | .dropEdit => w.selection.isEditing || w.mode = .normal
  | .turnHelp _ | .leaveHelp => !w.selection.isEditing && w.mode = .help
  | .closePrompt | .confirm | .editFileName _ =>
    !w.selection.isEditing && (w.mode = .exportPrompt || w.mode = .importPrompt)
  | .press .. | .drag _ | .release | .exportTable _ | .importTable _ | .tick _ | .resize ..
  | .stop | .outside .. => false
  | _ => !w.selection.isEditing && w.mode = .normal

/-- What the pointer does to the cell at its point.  Where no cell can be told the program stops. -/
def pointedAt? (w : Workspace γ) (e : PointerEvent) (width height : Nat) (f : Position → Action γ) :
    Option (Action γ) :=
  match Screen.hit? w width height e.x e.y with
  | some p? => p?.map f
  | none => some .stop

/-- What the pointer does as things stand. -/
def pointed? (w : Workspace γ) (e : PointerEvent) (width height : Nat) : Option (Action γ) :=
  if w.mode = .normal then
    match e.action with
    | .press => w.pointedAt? e width height fun p => .press p e.mods.shift
    | .drag => w.pointedAt? e width height .drag
    | .release => some .release
    | .wheelDown => some (.step .down false)
    | .wheelUp => some (.step .up false)
    | .other => none
  else none

section Gestures

variable {w : Workspace γ} {a : Action γ}

theorem isGesture_of_isTyped (h : w.isTyped a = true) : a.isGesture = true := by
  cases a <;> first | rfl | cases h

theorem pointedAt?_eq_some {e : PointerEvent} {width height : Nat} {f : Position → Action γ} :
    w.pointedAt? e width height f = some a ↔
      (∃ p, Screen.hit? w width height e.x e.y = some (some p) ∧ a = f p) ∨
        Screen.hit? w width height e.x e.y = none ∧ a = .stop := by
  unfold pointedAt?
  cases hit : Screen.hit? w width height e.x e.y with
  | none => simp [eq_comm]
  | some p? => simp [Option.map_eq_some_iff, eq_comm]

/-- The pointer does something only while nothing lies over the grid, and what it does depends on
its event. -/
theorem pointed?_eq_some {e : PointerEvent} {width height : Nat}
    (h : w.pointed? e width height = some a) :
    w.mode = .normal ∧
      ((∃ p, e.action = .press ∧ Screen.hit? w width height e.x e.y = some (some p) ∧
          a = .press p e.mods.shift) ∨
        (∃ p, e.action = .drag ∧ Screen.hit? w width height e.x e.y = some (some p) ∧ a = .drag p) ∨
        (e.action = .release ∧ a = .release) ∨
        (e.action = .wheelDown ∧ a = .step .down false) ∨
        (e.action = .wheelUp ∧ a = .step .up false) ∨
        ((e.action = .press ∨ e.action = .drag) ∧ Screen.hit? w width height e.x e.y = none ∧
          a = .stop)) := by
  unfold pointed? at h
  split_ifs at h with hmode
  refine ⟨hmode, ?_⟩
  -- a press and a drag go to the cell they hit, or stop the program if they cannot tell which
  cases hact : e.action <;> simp only [hact, reduceCtorEq, Option.some.injEq] at h
  case press =>
    rcases pointedAt?_eq_some.1 h with ⟨p, hp, rfl⟩ | ⟨hp, rfl⟩
    · exact .inl ⟨p, rfl, hp, rfl⟩
    · exact .inr (.inr (.inr (.inr (.inr ⟨.inl rfl, hp, rfl⟩))))
  case drag =>
    rcases pointedAt?_eq_some.1 h with ⟨p, hp, rfl⟩ | ⟨hp, rfl⟩
    · exact .inr (.inl ⟨p, rfl, hp, rfl⟩)
    · exact .inr (.inr (.inr (.inr (.inr ⟨.inr rfl, hp, rfl⟩))))
  case release => exact .inr (.inr (.inl ⟨rfl, h.symm⟩))
  case wheelDown => exact .inr (.inr (.inr (.inl ⟨rfl, h.symm⟩)))
  case wheelUp => exact .inr (.inr (.inr (.inr (.inl ⟨rfl, h.symm⟩))))

theorem isGesture_of_pointed? {e : PointerEvent} {width height : Nat}
    (h : w.pointed? e width height = some a) : a.isGesture = true := by
  obtain ⟨-, ⟨p, -, -, rfl⟩ | ⟨p, -, -, rfl⟩ | ⟨-, rfl⟩ | ⟨-, rfl⟩ | ⟨-, rfl⟩ | ⟨-, -, rfl⟩⟩ :=
    pointed?_eq_some h <;>
    rfl

end Gestures

variable [Archive γ]

/-- Does one thing. -/
def act (w : Workspace γ) : Action γ → Workspace γ
  | .editActive => w.editActive
  | .edit f => w.edit f
  | .commitAndStep => w.commitAndStep
  | .dropEdit => w.dropEdit
  | .step d extend => w.step d extend
  | .chooseAll => w.chooseAll
  | .press p shift => w.press p shift
  | .drag p => w.drag p
  | .release => w.release
  | .clearRegion => w.clearRegion.2
  | .copy => w.copy.2
  | .cut => w.cut.2
  | .paste => w.paste.2
  | .undo => w.undo
  | .redo => w.redo
  | .appendRow => w.appendRow
  | .appendCol => w.appendCol
  | .saveAtOnce => w.saveAtOnce
  | .askExport => w.askExport
  | .askImport => w.askImport
  | .closePrompt => w.closePrompt
  | .confirm => w.confirm
  | .editFileName f => w.editFileName f
  | .exportTable path => (w.exportTable path).2
  | .importTable path => (w.importTable path).2
  | .clearMessage => { w with message := none }
  | .showHelp => { w with mode := .help, helpLine := 0 }
  | .turnHelp line => { w with helpLine := line }
  | .leaveHelp => { w with mode := .normal }
  | .tick now => (w.tick now).2
  | .resize rows cols => w.resize rows cols
  | .stop => w.stop
  | .outside archive files clipboard clock => { w with archive, files, clipboard, clock }

/-- Does one thing after the other. -/
def run (w : Workspace γ) (as : List (Action γ)) : Workspace γ := as.foldl act w

/-! ### Keys -/

/-- A workspace that is another one after at most one thing that a key can do, before which the
message may be cleared. -/
def ReachedByKey (w w' : Workspace γ) : Prop :=
  w' = w ∨ ∃ a : Action γ, w.isTyped a = true ∧
    (w' = w.act a ∨ w.isTyped .clearMessage = true ∧ w' = (w.act .clearMessage).act a)

theorem ReachedByKey.none (w : Workspace γ) : ReachedByKey w w := .inl rfl

theorem ReachedByKey.one {w w' : Workspace γ} (a : Action γ) (ha : w.isTyped a = true)
    (h : w' = w.act a) : ReachedByKey w w' := .inr ⟨a, ha, .inl h⟩

theorem ReachedByKey.cleared {w w' : Workspace γ} (a : Action γ) (ha : w.isTyped a = true)
    (hclear : w.isTyped .clearMessage = true) (h : w' = (w.act .clearMessage).act a) :
    ReachedByKey w w' := .inr ⟨a, ha, .inr ⟨hclear, h⟩⟩

section Modes

variable {w : Workspace γ}

theorem editingKey_reached (hedit : w.selection.isEditing = true) (key : Key) (mods : Modifiers) :
    ReachedByKey w (w.editingKey key mods) := by
  have hdrop : w.isTyped .dropEdit = true := by simp [isTyped, hedit]
  unfold editingKey
  split_ifs
  · exact .none w
  · cases key
    case enter => exact .one .commitAndStep hedit rfl
    case escape => exact .one .dropEdit hdrop rfl
    case char c => exact .one (.edit (·.insert c)) hedit rfl
    case backspace => exact .one (.edit TextField.backspace) hedit rfl
    case delete => exact .one (.edit TextField.delete) hedit rfl
    case left => exact .one (.edit TextField.left) hedit rfl
    case right => exact .one (.edit TextField.right) hedit rfl
    case home => exact .one (.edit TextField.home) hedit rfl
    case «end» => exact .one (.edit TextField.toEnd) hedit rfl
    all_goals exact .none w

theorem shortcut_reached (hok : w.isTyped .clearMessage = true) (c : Char) :
    ReachedByKey w (w.shortcut c) := by
  unfold shortcut
  split
  · exact .one .copy hok rfl
  · exact .one .cut hok rfl
  · exact .one .paste hok rfl
  · exact .one .undo hok rfl
  · exact .one .redo hok rfl
  · exact .one .saveAtOnce hok rfl
  · exact .one .askExport hok rfl
  · exact .one .askImport hok rfl
  · exact .one .appendRow hok rfl
  · exact .one .appendCol hok rfl
  · exact .one .chooseAll hok rfl
  · exact .none w

/-- A key in the grid clears the message first. -/
theorem gridKey_reached (hok : w.isTyped .clearMessage = true) (hdrop : w.isTyped .dropEdit = true)
    (key : Key) (shift : Bool) : ReachedByKey w (w.gridKey key shift) := by
  unfold gridKey
  simp only
  split
  · exact .cleared (.step .up shift) hok hok rfl
  · exact .cleared (.step .up shift) hok hok rfl
  · exact .cleared (.step .down shift) hok hok rfl
  · exact .cleared (.step .down shift) hok hok rfl
  · exact .cleared (.step .left shift) hok hok rfl
  · exact .cleared (.step .left shift) hok hok rfl
  · exact .cleared (.step .right shift) hok hok rfl
  · exact .cleared (.step .right shift) hok hok rfl
  · exact .cleared (.step .up true) hok hok rfl
  · exact .cleared (.step .down true) hok hok rfl
  · exact .cleared (.step .left true) hok hok rfl
  · exact .cleared (.step .right true) hok hok rfl
  · exact .cleared .editActive hok hok rfl
  · exact .cleared .editActive hok hok rfl
  · exact .cleared .clearRegion hok hok rfl
  · exact .cleared .clearRegion hok hok rfl
  · exact .cleared .showHelp hok hok rfl
  · exact .cleared .showHelp hok hok rfl
  · exact .cleared .dropEdit hdrop hok rfl
  · exact .one .clearMessage hok rfl

theorem normalKey_reached (hidle : w.selection.isEditing = false) (hmode : w.mode = .normal)
    (key : Key) (mods : Modifiers) : ReachedByKey w (w.normalKey key mods) := by
  have hok : w.isTyped .clearMessage = true := by simp [isTyped, hidle, hmode]
  have hdrop : w.isTyped .dropEdit = true := by simp [isTyped, hmode]
  unfold normalKey
  split_ifs
  · split
    · exact shortcut_reached hok _
    · exact .none w
  · exact gridKey_reached hok hdrop key mods.shift

theorem helpKey_reached (hidle : w.selection.isEditing = false) (hmode : w.mode = .help)
    (key : Key) : ReachedByKey w (w.helpKey key) := by
  have hok : w.isTyped .leaveHelp = true := by simp [isTyped, hidle, hmode]
  unfold helpKey
  split
  · exact .one .leaveHelp hok rfl
  · exact .one .leaveHelp hok rfl
  · exact .one .leaveHelp hok rfl
  · exact .one .leaveHelp hok rfl
  · exact .one (.turnHelp (w.helpLine - 1)) hok rfl
  · exact .one (.turnHelp (w.helpLine - 1)) hok rfl
  · exact .one (.turnHelp (Word.add w.helpLine 1)) hok rfl
  · exact .one (.turnHelp (Word.add w.helpLine 1)) hok rfl
  · exact .one (.turnHelp (w.helpLine - 5)) hok rfl
  · exact .one (.turnHelp (Word.add w.helpLine 5)) hok rfl
  · exact .one (.turnHelp 0) hok rfl
  · exact .none w

theorem promptKey_reached (hidle : w.selection.isEditing = false)
    (hmode : w.mode = .exportPrompt ∨ w.mode = .importPrompt) (key : Key) :
    ReachedByKey w (w.promptKey key) := by
  have hok : w.isTyped .confirm = true := by
    rcases hmode with hmode | hmode <;> simp [isTyped, hidle, hmode]
  unfold promptKey
  cases key
  case enter => exact .one .confirm hok rfl
  case escape => exact .one .closePrompt hok rfl
  case char c => exact .one (.editFileName (·.insert c)) hok rfl
  case backspace => exact .one (.editFileName TextField.backspace) hok rfl
  case delete => exact .one (.editFileName TextField.delete) hok rfl
  case left => exact .one (.editFileName (·.move (-1))) hok rfl
  case right => exact .one (.editFileName (·.move 1)) hok rfl
  case home => exact .one (.editFileName TextField.home) hok rfl
  case «end» => exact .one (.editFileName TextField.toEnd) hok rfl
  all_goals exact .none w

end Modes

/-- Every key does at most one thing, and only what keys can do as things stand. -/
theorem pressKey_reachedByKey (w : Workspace γ) (key : Key) (mods : Modifiers) :
    ReachedByKey w (w.pressKey key mods) := by
  unfold pressKey
  split_ifs with hedit
  · exact editingKey_reached hedit key mods
  · rw [Bool.not_eq_true] at hedit
    cases hmode : w.mode with
    | normal => exact normalKey_reached hedit hmode key mods
    | help => exact helpKey_reached hedit hmode key
    | exportPrompt => exact promptKey_reached hedit (.inl hmode) key
    | importPrompt => exact promptKey_reached hedit (.inr hmode) key

/-! ### The pointer -/

theorem usePointer_eq (w : Workspace γ) (e : PointerEvent) (width height : Nat) :
    w.usePointer e width height = (w.pointed? e width height).elim w w.act := by
  unfold usePointer pointed? pointedAt?
  split_ifs
  · cases e.action
    case press => rcases Screen.hit? w width height e.x e.y with - | - | p <;> rfl
    case drag => rcases Screen.hit? w width height e.x e.y with - | - | p <;> rfl
    all_goals rfl
  · rfl

/-! ### Gestures -/

/-- A workspace that is another one after at most one gesture, before which the message may be
cleared. -/
def ReachedByGesture (w w' : Workspace γ) : Prop :=
  w' = w ∨ ∃ a : Action γ, a.isGesture = true ∧ (w' = w.act a ∨ w' = (w.act .clearMessage).act a)

/-- Every key is at most one gesture. -/
theorem pressKey_reached (w : Workspace γ) (key : Key) (mods : Modifiers) :
    ReachedByGesture w (w.pressKey key mods) := by
  rcases pressKey_reachedByKey w key mods with h | ⟨a, ha, h | ⟨-, h⟩⟩
  · exact .inl h
  · exact .inr ⟨a, isGesture_of_isTyped ha, .inl h⟩
  · exact .inr ⟨a, isGesture_of_isTyped ha, .inr h⟩

/-- Every use of the pointer is at most one gesture. -/
theorem usePointer_reached (w : Workspace γ) (e : PointerEvent) (width height : Nat) :
    ReachedByGesture w (w.usePointer e width height) := by
  rw [usePointer_eq]
  cases ha : w.pointed? e width height with
  | none => exact .inl rfl
  | some a => exact .inr ⟨a, isGesture_of_pointed? ha, .inl rfl⟩

/-! ### What happens -/

/-- What can happen to a workspace on a screen. -/
inductive Happening (γ : Type) where
  | key (key : Key) (mods : Modifiers)
  /-- The pointer is used on a screen of this size. -/
  | pointer (e : PointerEvent) (width height : Nat)
  /-- So many rows and columns are shown. -/
  | view (rows cols : Nat)
  | tick (now : Nat)
  /-- The world around the workspace changes. -/
  | outside (archive : γ) (files : FileSystem) (clipboard : Clipboard) (clock : Nat)

/-- Something happens. -/
def happen (w : Workspace γ) : Happening γ → Workspace γ
  | .key key mods => w.pressKey key mods
  | .pointer e width height => w.usePointer e width height
  | .view rows cols => w.resize rows cols
  | .tick now => (w.tick now).2
  | .outside archive files clipboard clock => { w with archive, files, clipboard, clock }

/-- One thing happens after the other. -/
def live (w : Workspace γ) (hs : List (Happening γ)) : Workspace γ := hs.foldl happen w

theorem live_append (w : Workspace γ) (hs hs' : List (Happening γ)) :
    w.live (hs ++ hs') = (w.live hs).live hs' := List.foldl_append

/-- Whether what happens can come to this action as things stand. -/
def ComesTo (w : Workspace γ) (h : Happening γ) (a : Action γ) : Prop :=
  match h with
  | .key _ _ => w.isTyped a = true
  | .pointer e width height => w.pointed? e width height = some a
  | .view rows cols => a = .resize rows cols
  | .tick now => a = .tick now
  | .outside archive files clipboard clock => a = .outside archive files clipboard clock

/-- What happens comes to nothing or to one action, before which a key in the grid may clear the
message. -/
theorem happen_cases (w : Workspace γ) (h : Happening γ) :
    (w.happen h = w ∧
        ∀ e width height, h = .pointer e width height → w.pointed? e width height = none) ∨
      ∃ a, ComesTo w h a ∧
        (w.happen h = w.act a ∨
          w.isTyped .clearMessage = true ∧ w.happen h = (w.act .clearMessage).act a) := by
  -- only keys and the pointer can come to nothing, and only keys clear the message
  cases h with
  | key key mods => exact (pressKey_reachedByKey w key mods).imp_left fun heq => ⟨heq, nofun⟩
  | pointer e width height =>
    have heq := usePointer_eq w e width height
    cases ha : w.pointed? e width height with
    | none =>
      rw [ha] at heq
      refine .inl ⟨heq, ?_⟩
      rintro _ _ _ ⟨⟩
      exact ha
    | some a =>
      rw [ha] at heq
      exact .inr ⟨a, ha, .inl heq⟩
  | view rows cols => exact .inr ⟨.resize rows cols, rfl, .inl rfl⟩
  | tick now => exact .inr ⟨.tick now, rfl, .inl rfl⟩
  | outside archive files clipboard clock =>
    exact .inr ⟨.outside archive files clipboard clock, rfl, .inl rfl⟩

/-- What every action preserves is preserved by all that happens. -/
theorem happen_preserves {P : Workspace γ → Prop} {w : Workspace γ} (h : Happening γ)
    (hview : ∀ rows cols, h = .view rows cols → P (w.resize rows cols))
    (hact : ∀ v a, v = w ∨ v = w.act .clearMessage → (∀ rows cols, a ≠ .resize rows cols) →
      P v → P (v.act a))
    (hw : P w) : P (w.happen h) := by
  have hgesture {w' : Workspace γ} (hr : ReachedByGesture w w') : P w' := by
    rcases hr with rfl | ⟨a, ha, rfl | rfl⟩
    · exact hw
    · exact hact w a (.inl rfl) (by rintro _ _ rfl; cases ha) hw
    · have hcleared := hact w .clearMessage (.inl rfl) (by simp) hw
      exact hact _ a (.inr rfl) (by rintro _ _ rfl; cases ha) hcleared
  cases h with
  | key key mods => exact hgesture (pressKey_reached w key mods)
  | pointer e width height => exact hgesture (usePointer_reached w e width height)
  | view rows cols => exact hview rows cols rfl
  | tick now => exact hact w (.tick now) (.inl rfl) (by simp) hw
  | outside archive files clipboard clock =>
    exact hact w (.outside archive files clipboard clock) (.inl rfl) (by simp) hw

/-- The options of a sheet with two rows and two columns. -/
def smallSheet : Options := ⟨"sheet", ⟨2, 2, by decide, by decide⟩, 10, 1000, 100, false⟩

end Workspace

end Spreadsheet
