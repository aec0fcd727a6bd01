import Mathlib.Tactic.SplitIfs
import Spreadsheet.Files.TableFile

/-!
# Spreadsheet.Proofs.Files.Importing — which files are not imported, and why

A file is rejected for its extension, because it cannot be read, because there is nothing in it, or
because its records have different numbers of fields.  `Rejected` says so without the order in which
the program looks at these things; `read_eq_error_iff` shows that exactly these faults are reported.
-/

namespace Spreadsheet

namespace Interchange

variable {text : String} {e : ImportFault}

/-- Why a text is no table. -/
inductive NoTable (text : String) : ImportFault → Prop where
  /-- There are only blanks in it, and perhaps a byte order mark. -/
  | empty (hblank : (Csv.dropMark text.toList).all Text.isBlank = true) : NoTable text .empty
  /-- `odd` is the first record that has not as many fields as the first one. -/
  | ragged (first odd : Csv.Record) (even rest : List Csv.Record)
      (htext : (Csv.dropMark text.toList).all Text.isBlank = false)
      (hrecords : Csv.records (Csv.dropMark text.toList) = first :: even ++ odd :: rest)
      (heven : ∀ r ∈ even, r.fields.length = first.fields.length)
      (hodd : odd.fields.length ≠ first.fields.length) :
      NoTable text (.ragged odd.line first.fields.length odd.fields.length)

/-- The first record that is out of step is the one that `mismatch?` reports. -/
theorem mismatch?_eq_some_iff {expected : Nat} {records : List Csv.Record} :
    mismatch? expected records = some e ↔
      ∃ odd even rest, records = even ++ odd :: rest ∧ odd.fields.length ≠ expected ∧
        (∀ r ∈ even, r.fields.length = expected) ∧
        e = .ragged odd.line expected odd.fields.length := by
  unfold mismatch?
  simp only [Option.map_eq_some_iff, List.find?_eq_some_iff_append, Bool.not_eq_true',
    decide_eq_true_iff, decide_eq_false_iff_not, Classical.not_not]
  constructor
  · rintro ⟨odd, ⟨hodd, even, rest, hrecords, heven⟩, rfl⟩
    exact ⟨odd, even, rest, hrecords, hodd, heven, rfl⟩
  · rintro ⟨odd, even, rest, hrecords, hodd, heven, rfl⟩
    exact ⟨odd, ⟨hodd, even, rest, hrecords, heven⟩, rfl⟩

/-- A text is not imported exactly if it is no table, and the fault says why. -/
theorem importText_eq_error_iff : importText text = .error e ↔ NoTable text e := by
  unfold importText
  simp only
  split_ifs with hblank
  · constructor
    · rintro ⟨⟩
      exact .empty hblank
    · rintro (_ | ⟨_, _, _, _, htext⟩)
      · rfl
      · rw [hblank] at htext
        cases htext
  · rw [Bool.not_eq_true] at hblank
    generalize hcols :
      ((Csv.records (Csv.dropMark text.toList)).head?.map fun r => r.fields.length).getD 0 = cols
    -- a text that is not blank is no table exactly if some record is not as long as the first
    have hfault : NoTable text e ↔
        mismatch? cols (Csv.records (Csv.dropMark text.toList)) = some e := by
      rw [mismatch?_eq_some_iff]
      constructor
      · rintro (hall | ⟨first, odd, even, rest, _, hrecords, heven, hodd⟩)
        · rw [hblank] at hall
          cases hall
        · obtain rfl : first.fields.length = cols := by
            rw [← hcols, hrecords]
            rfl
          refine ⟨odd, first :: even, rest, hrecords, hodd, fun r hr => ?_, rfl⟩
          rcases List.mem_cons.1 hr with rfl | hr
          · rfl
          · exact heven r hr
      · rintro ⟨odd, even, rest, hrecords, hodd, heven, rfl⟩
        cases even with
        | nil =>
          -- The first record is never out of step with itself.
          refine absurd ?_ hodd
          rw [← hcols, hrecords]
          rfl
        | cons first even =>
          obtain rfl : first.fields.length = cols := heven first List.mem_cons_self
          exact .ragged first odd even rest hblank hrecords
            (fun r hr => heven r (List.mem_cons_of_mem first hr)) hodd
    rw [hfault]
    split
    · rename_i e' hmismatch
      rw [hmismatch, Except.error.injEq, Option.some.injEq]
    · rename_i hmismatch
      rw [hmismatch]
      exact iff_of_false nofun nofun

end Interchange

namespace TableFile

variable {fs : FileSystem} {path : String} {e : ImportFault}

/-- The extension of a path in lower case. -/
def extension (path : String) : String :=
  String.ofList (((Path.extension? path).getD []).map Char.toLower)

/-- Why a file is rejected. -/
inductive Rejected (fs : FileSystem) (path : String) : ImportFault → Prop where
  | binaryTable (hext : extension path = "xls") : Rejected fs path (.binaryTable "xls")
  | noExtension (hext : extension path = "") : Rejected fs path (.otherKind "no extension")
  | otherKind (hcsv : extension path ≠ "csv") (hxls : extension path ≠ "xls")
      (hext : extension path ≠ "") : Rejected fs path (.otherKind ("." ++ extension path))
  | unreadable (fault : FileError) (hext : extension path = "csv")
      (hread : fs.read path = .error fault) : Rejected fs path (.unreadable fault.message)
  | noTable (content : Content) (fault : ImportFault) (hext : extension path = "csv")
      (hread : fs.read path = .ok content) (htext : Interchange.NoTable content.readable fault) :
      Rejected fs path fault

theorem accept_of_csv (hext : extension path = "csv") : accept path = .ok () := by
  unfold extension at hext
  unfold accept
  simp only
  rw [if_pos hext]

theorem accept_of_not_csv (hext : extension path ≠ "csv") :
    accept path =
      if extension path = "xls" then .error (.binaryTable (extension path))
      else if extension path = "" then .error (.otherKind "no extension")
      else .error (.otherKind ("." ++ extension path)) := if_neg hext

/-- What has another extension is rejected without a look at the file. -/
theorem accept_eq_error_iff (hext : extension path ≠ "csv") :
    accept path = .error e ↔ Rejected fs path e := by
  rw [accept_of_not_csv hext]
  constructor
  · split_ifs with hxls hnone
    · rintro ⟨⟩
      rw [hxls]
      exact .binaryTable hxls
    · rintro ⟨⟩
      exact .noExtension hnone
    · rintro ⟨⟩
      exact .otherKind hext hxls hnone
  · rintro (hxls | hnone | ⟨_, hxls, hnone⟩ | ⟨_, hcsv⟩ | ⟨_, _, hcsv⟩)
    · rw [if_pos hxls, hxls]
    · rw [if_neg (by rw [hnone]; decide), if_pos hnone]
    · rw [if_neg hxls, if_neg hnone]
    · exact absurd hcsv hext
    · exact absurd hcsv hext

theorem read_of_csv (hext : extension path = "csv") :
    read fs path =
      match fs.read path with
      | .error fault => .error (.unreadable fault.message)
      | .ok content => Interchange.importText content.readable := by
  unfold read
  rw [accept_of_csv hext]
  rfl

/-- With the right extension it is the content that counts. -/
theorem rejected_iff_of_csv (hext : extension path = "csv") :
    Rejected fs path e ↔
      (∃ fault, fs.read path = .error fault ∧ e = .unreadable fault.message) ∨
      ∃ content, fs.read path = .ok content ∧ Interchange.NoTable content.readable e := by
  constructor
  · rintro (hxls | hnone | ⟨hcsv⟩ | ⟨fault, _, hread⟩ | ⟨content, _, _, hread, htext⟩)
    · exact absurd (hext.symm.trans hxls) (by decide)
    · exact absurd (hext.symm.trans hnone) (by decide)
    · exact absurd hext hcsv
    · exact .inl ⟨fault, hread, rfl⟩
    · exact .inr ⟨content, hread, htext⟩
  · rintro (⟨fault, hread, rfl⟩ | ⟨content, hread, htext⟩)
    · exact .unreadable fault hext hread
    · exact .noTable content e hext hread htext

/-- A file is not imported exactly if it is rejected, and the fault says why. -/
theorem read_eq_error_iff : read fs path = .error e ↔ Rejected fs path e := by
  by_cases hext : extension path = "csv"
  · rw [read_of_csv hext, rejected_iff_of_csv hext]
    cases hread : fs.read path with
    | error fault => simp [eq_comm]
    | ok content => simp [Interchange.importText_eq_error_iff]
  · rw [← accept_eq_error_iff hext]
    unfold read
    cases haccept : accept path with
    | error fault =>
      show (.error fault : Except ImportFault Table) = .error e ↔ _
      rw [Except.error.injEq, Except.error.injEq]
    | ok _ =>
      rw [accept_of_not_csv hext] at haccept
      split_ifs at haccept

end TableFile

end Spreadsheet
