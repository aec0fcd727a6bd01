import Spreadsheet.Json.Record
import Spreadsheet.Proofs.Results

/-!
# Spreadsheet.Proofs.Json.Reading — what holds of every record that is read

A record is put together field by field, whichever members its text has and in whatever order.  So
what holds of the absent fields' values and is kept by every field's value holds of the record.  Of an
object that can be read, the members that are fields are put into the record one after the other,
and all others are skipped.
-/

namespace Spreadsheet

namespace JsonTree

variable {σ : Type} {fields : List (Field σ)} {P : σ → Prop}

/-- What the value of every field keeps, the members of an object keep. -/
theorem readMembersInto_preserves
    (hput : ∀ f ∈ fields, ∀ t record next, f.put t record = .ok next → P record → P next)
    {ms : List (Except JsonFault (List Char) × JsonTree)} {seen seen' : List String}
    {record record' : σ} (h : readMembersInto fields ms seen record = .ok (seen', record'))
    (hrecord : P record) : P record' := by
  induction ms generalizing seen record with
  | nil =>
    rw [readMembersInto, Except.ok.injEq, Prod.mk.injEq] at h
    exact h.2 ▸ hrecord
  | cons m ms ih =>
    obtain ⟨key, value⟩ := m
    rw [readMembersInto] at h
    obtain ⟨name, -, h⟩ := exists_ok_of_bind_ok h
    split at h
    · -- a member that is no field is skipped
      obtain ⟨-, -, h⟩ := exists_ok_of_bind_ok h
      exact ih h hrecord
    · rename_i f hfind
      split at h
      · cases h
      · obtain ⟨next, hnext, h⟩ := exists_ok_of_bind_ok h
        exact ih h (hput f (List.mem_of_find?_eq_some hfind) value record next hnext hrecord)

/-- What the value of every field keeps, the items of an array keep. -/
theorem readItemsInto_preserves {ending : Option JsonFault} {ts : List JsonTree} {record record' : σ}
    (hput : ∀ f ∈ fields, ∀ t record next, f.put t record = .ok next → P record → P next)
    (h : readItemsInto ending fields ts record = .ok record') (hrecord : P record) : P record' := by
  induction fields generalizing ts record with
  | nil =>
    cases ts with
    | nil =>
      unfold readItemsInto at h
      split at h
      · exact Except.ok.inj h ▸ hrecord
      · cases h
    | cons t ts => cases h
  | cons f fields ih =>
    obtain ⟨hfirst, hrest⟩ := List.forall_mem_cons.1 hput
    cases ts with
    | nil =>
      unfold readItemsInto at h
      split at h
      · cases h
      · split at h
        · exact ih hrest h hrecord
        · cases h
    | cons t ts =>
      obtain ⟨next, hnext, h⟩ := exists_ok_of_bind_ok h
      exact ih hrest h (hfirst t record next hnext hrecord)

/-- What holds of the values of absent fields, and is kept by the value of every field, holds of
every record that is read. -/
theorem readRecord_preserves
    (hput : ∀ f ∈ fields, ∀ t record next, f.put t record = .ok next → P record → P next)
    {start record : σ} {t : JsonTree} (h : readRecord fields start t = .ok record) (hstart : P start) :
    P record := by
  unfold readRecord at h
  split at h
  · obtain ⟨⟨seen, read⟩, hread, h⟩ := exists_ok_of_bind_ok h
    have hkept : P read := readMembersInto_preserves hput hread hstart
    dsimp only at h
    split at h
    · cases h
    · split at h
      · exact Except.ok.inj h ▸ hkept
      · cases h
  · exact readItemsInto_preserves hput h hstart
  · cases h

/-- What is read of a text is read of its tree. -/
theorem exists_decode_of_parse {α : Type} {decode : JsonTree → Except JsonError α} {s : String} {a : α}
    (h : parse decode s = .ok a) : ∃ t, decode t = .ok a := by
  obtain ⟨b, hdecode, h⟩ := exists_ok_of_bind_ok h
  split at h
  · cases h
  · exact ⟨_, Except.ok.inj h ▸ hdecode⟩

/-! ### Members in any order -/

/-- Members whose keys are texts. -/
def named (ms : List (String × JsonTree)) : List (Except JsonFault (List Char) × JsonTree) :=
  ms.map fun m => (.ok m.1.toList, m.2)

/-- The names of fields. -/
def fieldNames (fields : List (Field σ)) : List String := fields.map Field.name

/-- A value that the field of this name takes, in every record alike. -/
def Assigns (fields : List (Field σ)) (name : String) (t : JsonTree) (assign : σ → σ) : Prop :=
  ∃ f, (fields.find? fun f => f.name = name) = some f ∧
    ∀ record, f.put t record = .ok (assign record)

variable {name : String} {t : JsonTree} {seen : List String} {record : σ}

/-- A member that is a field, and the first one of its name, is put into the record. -/
theorem readMembersInto_put {f : Field σ} {next : σ}
    (hfind : (fields.find? fun f => f.name = name) = some f) (hseen : name ∉ seen)
    (hput : f.put t record = .ok next) (ms : List (Except JsonFault (List Char) × JsonTree)) :
    readMembersInto fields ((.ok name.toList, t) :: ms) seen record =
      readMembersInto fields ms (name :: seen) next := by
  rw [readMembersInto]
  simp only [keyText, String.ofList_toList, bind, Except.bind, hfind, if_neg hseen, hput]

/-- A member that is no field is skipped. -/
theorem readMembersInto_skip (hname : name ∉ fieldNames fields) (hskip : skip t = .ok ())
    (ms : List (Except JsonFault (List Char) × JsonTree)) :
    readMembersInto fields ((.ok name.toList, t) :: ms) seen record =
      readMembersInto fields ms seen record := by
  have hfind : (fields.find? fun f => f.name = name) = none := by
    rw [List.find?_eq_none]
    intro f hf heq
    exact hname (of_decide_eq_true heq ▸ List.mem_map_of_mem hf)
  rw [readMembersInto]
  simp only [keyText, String.ofList_toList, bind, Except.bind, hfind, hskip]

variable {ε : Type} {nameOf : ε → String} {treeOf : ε → JsonTree} {assign : ε → σ → σ} {es : List ε}

/-- Members of which those that are fields are values with distinct names are read into a record by
assigning these values in their order. -/
theorem readMembersInto_named {ms : List (String × JsonTree)}
    (hassigns : ∀ e ∈ es, Assigns fields (nameOf e) (treeOf e) (assign e))
    (hdistinct : (es.map nameOf).Nodup) (hseen : ∀ e ∈ es, nameOf e ∉ seen)
    (hknown : (ms.filter fun m => m.1 ∈ fieldNames fields) = es.map fun e => (nameOf e, treeOf e))
    (hskip : ∀ m ∈ ms, skip m.2 = .ok ()) :
    ∃ seen', readMembersInto fields (named ms) seen record =
      .ok (seen', es.foldl (fun record e => assign e record) record) := by
  induction ms generalizing es seen record with
  | nil =>
    obtain rfl : es = [] := List.map_eq_nil_iff.1 hknown.symm
    exact ⟨seen, rfl⟩
  | cons m ms ih =>
    obtain ⟨key, value⟩ := m
    obtain ⟨hvalue, hvalues⟩ := List.forall_mem_cons.1 hskip
    -- a field takes the first of the entries, any other member is skipped
    by_cases hkey : key ∈ fieldNames fields
    · rw [List.filter_cons_of_pos (by simpa using hkey)] at hknown
      obtain ⟨e, es, rfl, he, hrest⟩ := List.map_eq_cons_iff.1 hknown.symm
      obtain ⟨rfl, rfl⟩ := Prod.mk.inj he
      obtain ⟨⟨f, hfind, hput⟩, hassigns⟩ := List.forall_mem_cons.1 hassigns
      obtain ⟨hfirst, hseen⟩ := List.forall_mem_cons.1 hseen
      obtain ⟨hnew, hdistinct⟩ := List.nodup_cons.1 hdistinct
      have hlater : ∀ e' ∈ es, nameOf e' ∉ nameOf e :: seen := by
        intro e' he' hmem
        rcases List.mem_cons.1 hmem with heq | hmem
        · exact hnew (heq ▸ List.mem_map_of_mem he')
        · exact hseen e' he' hmem
      obtain ⟨seen', hread⟩ := ih hassigns hdistinct hlater hrest.symm hvalues
      exact ⟨seen', (readMembersInto_put hfind hfirst (hput record) (named ms)).trans hread⟩
    · rw [List.filter_cons_of_neg (by simpa using hkey)] at hknown
      obtain ⟨seen', hread⟩ := ih hassigns hdistinct hseen hknown hvalues
      exact ⟨seen', (readMembersInto_skip hkey hvalue (named ms)).trans hread⟩

/-- A record whose fields may all be absent is read from such members. -/
theorem readRecord_named {ms : List (String × JsonTree)} {start : σ}
    (hoptional : ∀ f ∈ fields, f.optional = true)
    (hassigns : ∀ e ∈ es, Assigns fields (nameOf e) (treeOf e) (assign e))
    (hdistinct : (es.map nameOf).Nodup)
    (hknown : (ms.filter fun m => m.1 ∈ fieldNames fields) = es.map fun e => (nameOf e, treeOf e))
    (hskip : ∀ m ∈ ms, skip m.2 = .ok ()) :
    readRecord fields start (.object (named ms) none) =
      .ok (es.foldl (fun record e => assign e record) start) := by
  obtain ⟨seen, hread⟩ := readMembersInto_named hassigns hdistinct
    (fun _ _ => List.not_mem_nil) hknown hskip
  have hall : (fields.all fun f => f.optional || seen.contains f.name) = true := by
    rw [List.all_eq_true]
    intro f hf
    rw [hoptional f hf, Bool.true_or]
  rw [readRecord, hread]
  simp only [bind, Except.bind, hall, if_true]

theorem asNatural_lt {bound n : Nat} {t : JsonTree} (h : t.asNatural bound = .ok n) : n < bound := by
  unfold asNatural at h
  split at h
  · split at h
    · rename_i hlt
      exact Except.ok.inj h ▸ hlt
    · cases h
  · cases h

end JsonTree

end Spreadsheet
