import Spreadsheet.Files.Utf8
import Spreadsheet.Input.Session

/-!
# Spreadsheet.Terminal.Decoder — what a terminal sends

A terminal sends characters in UTF-8.  Control characters stand for keys held with control, and
sequences that begin with an escape for the other keys, for the mouse and for the answer to the
question where the lower right corner of the screen is.  An escape behind which another escape
follows is the key of that name.
-/

namespace Spreadsheet

namespace Terminal

/-- Where the decoder stands. -/
inductive Place where
  /-- Between keys. -/
  | ground
  /-- Behind an escape. -/
  | escape
  /-- Behind an escape and an `O`. -/
  | function
  /-- Behind an escape and a bracket, with the parameters read so far. -/
  | control (params : List Char)
deriving DecidableEq, Repr

/-- The decoder: the state of reading UTF-8 and its place. -/
structure Decoder where
  utf8 : Utf8.State
  place : Place
deriving DecidableEq, Repr

/-- The modifier keys that a parameter stands for: one more than a sum of 1, 2 and 4. -/
def modifiersOf (n : Nat) : Modifiers :=
  { shift := (n - 1) % 2 = 1, alt := (n - 1) / 2 % 2 = 1, control := (n - 1) / 4 % 2 = 1 }

/-- A key with no modifier keys. -/
def plainKey (k : Key) : Event := .key k Modifiers.none

/-- The numbers between the semicolons of parameters; a missing one is 1. -/
def numbersOf (params : List Char) : List Nat :=
  (Interchange.splitAt ';' params).map fun ds =>
    if ds.isEmpty then 1 else Nat.ofDigitChars 10 (ds.filter Char.isDigit) 0

/-- The key that a character outside sequences stands for. -/
def charKey (c : Char) : Event :=
  let n := c.toNat
  if n = 13 ∨ n = 10 then plainKey .enter
  else if n = 127 ∨ n = 8 then plainKey .backspace
  else if n = 9 ∨ n = 0 ∨ (27 ≤ n ∧ n < 32) then plainKey .other
  else if n < 27 then .key (.char (Char.ofNat (n + 96))) { Modifiers.none with control := true }
  else plainKey (.char c)

/-- The key that a letter at the end of a sequence stands for. -/
def letterKey : Char → Key
  | 'A' => .up
  | 'B' => .down
  | 'C' => .right
  | 'D' => .left
  | 'H' => .home
  | 'F' => .end
  | 'P' => .function 1
  | 'Q' => .function 2
  | 'R' => .function 3
  | 'S' => .function 4
  | _ => .other

/-- The key that a number before a tilde stands for. -/
def numberKey : Nat → Key
  | 1 | 7 => .home
  | 3 => .delete
  | 4 | 8 => .end
  | 5 => .pageUp
  | 6 => .pageDown
  | 11 => .function 1
  | 12 => .function 2
  | 13 => .function 3
  | 14 => .function 4
  | _ => .other

/-- What the number of a mouse report stands for.  The lowest two bits are the button, 32 stands for
a motion and 64 for the wheel. -/
def pointerAction (code : Nat) (pressed : Bool) : PointerAction :=
  match code / 32 % 4, code % 4, pressed with
  | 0, 0, true => .press
  | 0, 0, false => .release
  | 1, 0, _ => .drag
  | 2, 0, _ => .wheelUp
  | 2, 1, _ => .wheelDown
  | _, _, _ => .other

/-- A mouse report: its number, and column and line counted from one. -/
def pointerEvent (numbers : List Nat) (pressed : Bool) : Event :=
  let code := numbers.getD 0 0
  .pointer
    { action := pointerAction code pressed
      x := numbers.getD 1 1 - 1
      y := numbers.getD 2 1 - 1
      mods := ⟨code / 16 % 2 = 1, code / 4 % 2 = 1, code / 8 % 2 = 1⟩ }

/-- The event that a complete sequence stands for. -/
def sequenceEvent (params : List Char) (last : Char) : Event :=
  match params with
  | '<' :: params => pointerEvent (numbersOf params) (last = 'M')
  | _ =>
    let numbers := numbersOf params
    let first := numbers.getD 0 1
    let second := numbers.getD 1 1
    if last = 'R' then .screen second first
    else .key (if last = '~' then numberKey first else letterKey last) (modifiersOf second)

/-- Whether a character ends a sequence. -/
def endsSequence (c : Char) : Bool := '@' ≤ c && c ≤ '~'

/-- Reads one character: the event that it completes, and the place behind it. -/
def Place.step : Place → Char → Option Event × Place
  | .ground, c => if c = '\x1B' then (none, .escape) else (some (charKey c), .ground)
  | .escape, c =>
    if c = '[' then (none, .control [])
    else if c = 'O' then (none, .function)
    else if c = '\x1B' then (some (plainKey .escape), .escape)
    else (some (.key (.char c) { Modifiers.none with alt := true }), .ground)
  | .function, c => (some (plainKey (letterKey c)), .ground)
  | .control params, c =>
    if endsSequence c then (some (sequenceEvent params c), .ground)
    else (none, .control (params ++ [c]))

namespace Decoder

/-- The decoder before the first byte. -/
def start : Decoder := ⟨.between, .ground⟩

/-- Reads one byte: the events that it completes, and the decoder behind it. -/
def step (d : Decoder) (byte : UInt8) : List Event × Decoder :=
  let r := Utf8.step d.utf8 byte.toNat
  let chars := r.1.map fun c => c.getD '\uFFFD'
  let s := chars.foldl
    (fun (acc : List Event × Place) c =>
      let t := acc.2.step c
      (acc.1 ++ t.1.toList, t.2)) ([], d.place)
  (s.1, ⟨r.2, s.2⟩)

/-- Reads bytes one after the other. -/
def feed (d : Decoder) : List UInt8 → List Event × Decoder
  | [] => ([], d)
  | b :: bs =>
    let r := d.step b
    let rest := feed r.2 bs
    (r.1 ++ rest.1, rest.2)

end Decoder

end Terminal

end Spreadsheet
