import CsvImport.Record.Decoder
import CsvImport.Text.Blank

/-!
# Headers

A header is a non-empty list of distinct names, none of them blank.  It is
built from given names, read from the first record of a text, or split off a
whole source.
-/

namespace CsvImport

/-- Why names do not make a header. -/
inductive HeaderError where
  /-- The name at this position is blank. -/
  | emptyField (index : Nat)
  /-- The name stands at an earlier position too. -/
  | duplicateField (name : String)
  /-- The record that should hold the names could not be decoded. -/
  | decode (source : DecodeError)
deriving DecidableEq, Repr, Inhabited

namespace HeaderError

def kind : HeaderError → FailureKind
  | emptyField _ => .emptyHeaderField
  | duplicateField _ => .duplicateHeaderField
  | decode source => source.kind

def message : HeaderError → String
  | emptyField index => "Header field " ++ toString index ++ " is empty"
  | duplicateField name => "Header field '" ++ name ++ "' appears more than once"
  | decode source => "Failed to decode header: " ++ source.message

end HeaderError

namespace Header

structure Valid (names : List String) : Prop where
  ne_nil : names ≠ []
  not_blank : ∀ name ∈ names, Text.isBlankText name = false
  nodup : names.Nodup

/--
The first problem among `names`, which start at position `index` behind the
names `earlier`.
-/
def firstProblem (index : Nat) (earlier : List String) : List String → Option HeaderError
  | [] => none
  | name :: later =>
      if Text.isBlankText name then some (.emptyField index)
      else if name ∈ earlier then some (.duplicateField name)
      else firstProblem (index + 1) (name :: earlier) later

/-- Names without a problem are not blank, distinct, and differ from the earlier ones. -/
theorem of_firstProblem_eq_none {index : Nat} {earlier names : List String}
    (none_found : firstProblem index earlier names = none) :
    (∀ name ∈ names, Text.isBlankText name = false) ∧ names.Nodup ∧
      ∀ name ∈ names, name ∉ earlier := by
  induction names generalizing index earlier with
  | nil => simp
  | cons name later ih =>
      unfold firstProblem at none_found
      split at none_found
      · simp at none_found
      · split at none_found
        · simp at none_found
        · rename_i not_blank not_earlier
          obtain ⟨blank, nodup, apart⟩ := ih none_found
          refine ⟨?_, ?_, ?_⟩
          · intro other member
            rcases List.mem_cons.mp member with rfl | member
            · simpa using not_blank
            · exact blank other member
          · refine List.nodup_cons.mpr ⟨fun member => ?_, nodup⟩
            exact apart name member (List.mem_cons_self ..)
          · intro other member
            rcases List.mem_cons.mp member with rfl | member
            · exact not_earlier
            · exact fun before => apart other member (List.mem_cons_of_mem _ before)

end Header

/-- The names of the fields of a source, in order. -/
structure Header where
  names : List String
  valid : Header.Valid names
deriving DecidableEq, Repr

namespace Header

/-- The header of the given names, trimmed first if `trim` is set. -/
def ofNames (trim : Bool) (names : List String) : Except HeaderError Header :=
  let names := if trim then names.map Text.trim else names
  match names_eq : names with
  | [] => .error (.emptyField 0)
  | _ :: _ =>
      match problem : firstProblem 0 [] names with
      | some e => .error e
      | none =>
          have found := of_firstProblem_eq_none problem
          .ok ⟨names, by simp [names_eq], found.1, found.2.1⟩

def size (header : Header) : Nat :=
  header.names.length

def get? (header : Header) (index : Nat) : Option String :=
  header.names[index]?

def indexOf? (header : Header) (name : String) : Option Nat :=
  header.names.idxOf? name

def display (header : Header) : String :=
  ", ".intercalate header.names

/-- The header in the first record of a text, which may begin with a byte order mark. -/
def parse (d : Dialect) (text : Bytes) : Except HeaderError Header :=
  match ((Decoder.ofBytes text.afterByteOrderMark).next d).1 with
  | none => .error (.emptyField 0)
  | some (.error e) => .error (.decode e)
  | some (.ok .blank) => .error (.emptyField 0)
  | some (.ok (.row row)) => ofNames d.trimHeader row.fields

/-- A header and where the data behind it starts. -/
structure Split where
  header : Header
  /-- The byte at which the data starts. -/
  dataStart : Nat
  /-- The number of the physical line on which the data starts. -/
  dataLine : Nat
deriving DecidableEq, Repr

/--
Split the header off a source: an optional byte order mark, blank lines, then the
record of the names.  A source without records has no header.
-/
def split (d : Dialect) (source : Bytes) : Except HeaderError (Option Split) :=
  match (Decoder.ofBytes source.afterByteOrderMark).nextRow d with
  | (.error e, _) => .error (.decode e)
  | (.ok none, _) => .ok none
  | (.ok (some row), after) => do
      let header ← ofNames d.trimHeader row.fields
      return some ⟨header, source.byteOrderMarkLength + after.offset, after.line⟩

end Header

end CsvImport
