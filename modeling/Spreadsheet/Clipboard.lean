/-!
# Spreadsheet.Clipboard — the text clipboard

The clipboard holds a text or nothing.  It may be out of order, and then every access fails with the
same error.
-/

namespace Spreadsheet

/-- Why the clipboard cannot be used. -/
inductive ClipboardFault where
  | unavailable (reason : String)
  | access (reason : String)
  | empty
deriving DecidableEq, Repr

/-- The wording of a clipboard error. -/
def ClipboardFault.message : ClipboardFault → String
  | unavailable reason => "clipboard unavailable: " ++ reason
  | access reason => "clipboard access denied: " ++ reason
  | empty => "clipboard is empty"

/-- The text on the clipboard and, if it is out of order, the error of every access. -/
structure Clipboard where
  text : Option String
  fault : Option ClipboardFault
deriving DecidableEq, Repr

namespace Clipboard

/-- A clipboard with nothing on it. -/
def blank : Clipboard := ⟨none, none⟩

/-- Puts a text on the clipboard. -/
def write (c : Clipboard) (s : String) : Except ClipboardFault Clipboard :=
  match c.fault with
  | some e => .error e
  | none => .ok { c with text := some s }

/-- The text on the clipboard. -/
def read (c : Clipboard) : Except ClipboardFault String :=
  match c.fault, c.text with
  | some e, _ => .error e
  | none, some s => .ok s
  | none, none => .error .empty

end Clipboard

end Spreadsheet
