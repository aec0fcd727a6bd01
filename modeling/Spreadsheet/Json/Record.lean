import Spreadsheet.Json.Tree
import Spreadsheet.Word

/-!
# Spreadsheet.Json.Record — typed values from trees

A wanted value is read from a tree, or there is the first error that stands in its way, in the order
of the text.  A record is read from an object, whose members may come in any order and among others
that are skipped, or from an array of its fields in their order.
-/

namespace Spreadsheet

/-- Why a text does not hold the wanted value. -/
inductive JsonError where
  /-- The text breaks the rules of JSON. -/
  | malformed
  /-- The text ends too early. -/
  | cutShort
  /-- A value is of the wrong kind or out of range, or a member is missing or repeated. -/
  | mismatch
deriving DecidableEq, Repr

namespace JsonError

/-- A fault as an error. -/
def ofFault : JsonFault → JsonError
  | .malformed => malformed
  | .cutShort => cutShort

/-- The wording of an error. -/
def message : JsonError → String
  | malformed => "malformed JSON"
  | cutShort => "unexpected end of JSON"
  | mismatch => "the JSON value does not fit"

end JsonError

namespace JsonTree

/-- The error that a value is not of the wanted kind, or what breaks it first. -/
def mismatchError : JsonTree → JsonError
  | broken b => .ofFault b.read
  | number _ false => .malformed
  | text (.error f) => .ofFault f
  | _ => .mismatch

/-- The value as a text. -/
def asText : JsonTree → Except JsonError String
  | text (.ok cs) => .ok (String.ofList cs)
  | t => .error t.mismatchError

/-- The value as a truth value. -/
def asBool : JsonTree → Except JsonError Bool
  | bool b => .ok b
  | t => .error t.mismatchError

/-- The value as a natural number below a bound. -/
def asNatural (bound : Nat) (t : JsonTree) : Except JsonError Nat :=
  match t with
  | number (some n) inRange =>
    if n < bound then .ok n else .error (number (some n) inRange).mismatchError
  | t => .error t.mismatchError

/-- The value as a 64-bit word. -/
def asWord (t : JsonTree) : Except JsonError Nat := asNatural Word.size t

/-- The value as a 16-bit word. -/
def asShort (t : JsonTree) : Except JsonError Nat := asNatural Word.shortSize t

mutual

/-- Skips a value, or stops at its first break. -/
def skip : JsonTree → Except JsonError Unit
  | broken b => .error (.ofFault b.skipped)
  | array items ending => do
    skipItems items
    match ending with
    | some f => .error (.ofFault f)
    | none => .ok ()
  | object members ending => do
    skipMembers members
    match ending with
    | some b => .error (.ofFault b.skipped)
    | none => .ok ()
  | _ => .ok ()

/-- Skips items. -/
def skipItems : List JsonTree → Except JsonError Unit
  | [] => .ok ()
  | t :: ts => do
    skip t
    skipItems ts

/-- Skips members. -/
def skipMembers : List (Except JsonFault (List Char) × JsonTree) → Except JsonError Unit
  | [] => .ok ()
  | m :: ms => do
    skip m.2
    skipMembers ms

end

/-- A field of a record of type `σ`: its name, whether it may be absent, and how its value is put
into a record. -/
structure Field (σ : Type) where
  name : String
  optional : Bool
  put : JsonTree → σ → Except JsonError σ

variable {σ : Type}

/-- The key of a member. -/
def keyText (key : Except JsonFault (List Char)) : Except JsonError String :=
  match key with
  | .ok cs => .ok (String.ofList cs)
  | .error f => .error (.ofFault f)

/-- Reads the members of an object into a record.  `seen` holds the names of the fields read so
far. -/
def readMembersInto (fields : List (Field σ)) :
    List (Except JsonFault (List Char) × JsonTree) → List String → σ →
      Except JsonError (List String × σ)
  | [], seen, record => .ok (seen, record)
  | (key, value) :: ms, seen, record => do
    let name ← keyText key
    match fields.find? fun f => f.name = name with
    | none =>
      skip value
      readMembersInto fields ms seen record
    | some f =>
      if name ∈ seen then .error .mismatch
      else
        let record ← f.put value record
        readMembersInto fields ms (name :: seen) record

/-- Reads the items of an array into the fields of a record, in their order. -/
def readItemsInto (ending : Option JsonFault) :
    List (Field σ) → List JsonTree → σ → Except JsonError σ
  | [], [], record =>
    match ending with
    | none => .ok record
    | some f => .error (.ofFault f)
  | [], _ :: _, _ => .error .malformed
  | f :: fs, [], record =>
    match ending with
    | some fault => .error (.ofFault fault)
    | none => if f.optional then readItemsInto ending fs [] record else .error .mismatch
  | f :: fs, t :: ts, record => do
    let record ← f.put t record
    readItemsInto ending fs ts record

/-- Reads a record.  `start` holds the values of absent fields. -/
def readRecord (fields : List (Field σ)) (start : σ) : JsonTree → Except JsonError σ
  | object members ending => do
    let (seen, record) ← readMembersInto fields members [] start
    match ending with
    | some b => .error (.ofFault b.read)
    | none =>
      if fields.all fun f => f.optional || seen.contains f.name then .ok record
      else .error .mismatch
  | array items ending => readItemsInto ending fields items start
  | t => .error t.mismatchError

/-- The value of a whole text. -/
def parse {α : Type} (decode : JsonTree → Except JsonError α) (s : String) : Except JsonError α := do
  let (tree, more) := read s.toList
  let a ← decode tree
  if more then .error .malformed else .ok a

end JsonTree

end Spreadsheet
