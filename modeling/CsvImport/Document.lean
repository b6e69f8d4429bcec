import CsvImport.Header

/-!
# Documents

A document pairs the names of a header with the fields of one row.  Rows with
too many fields are refused; what becomes of rows with too few is decided by the
arity policy.
-/

namespace CsvImport

/-- What to do with a row that has fewer fields than the header. -/
inductive ArityPolicy where
  /-- Refuse the row. -/
  | strict
  /-- Fill it up with empty fields. -/
  | lenient
  /-- Leave it out. -/
  | skipShort
deriving DecidableEq, Repr

namespace ArityPolicy

instance : Inhabited ArityPolicy := ⟨.lenient⟩

def code : ArityPolicy → String
  | strict => "strict"
  | lenient => "lenient"
  | skipShort => "skip_short"

def all : List ArityPolicy := [strict, lenient, skipShort]

def ofCode? (text : String) : Option ArityPolicy :=
  all.find? fun policy => policy.code == text

theorem ofCode?_code (policy : ArityPolicy) : ofCode? policy.code = some policy := by
  cases policy <;> decide

end ArityPolicy

/-- A row whose number of fields does not fit the header. -/
structure ArityMismatch where
  expected : Nat
  actual : Nat
deriving DecidableEq, Repr, Inhabited

def ArityMismatch.message (mismatch : ArityMismatch) : String :=
  "Row has " ++ toString mismatch.actual ++ " fields but the header has " ++
    toString mismatch.expected

structure Document where
  header : Header
  values : List String
  complete : values.length = header.names.length
deriving DecidableEq, Repr

namespace Document

def fields (doc : Document) : List (String × String) :=
  doc.header.names.zip doc.values

def size (doc : Document) : Nat :=
  doc.values.length

def get? (doc : Document) (name : String) : Option String := do
  let index ← doc.header.indexOf? name
  doc.values[index]?

end Document

/-- What becomes of a row that is not refused. -/
inductive Assembled where
  | document (doc : Document)
  | skipped
deriving DecidableEq, Repr

def assemble (policy : ArityPolicy) (header : Header) (row : List String) :
    Except ArityMismatch Assembled :=
  if fits : row.length = header.names.length then .ok (.document ⟨header, row, fits⟩)
  else if short : row.length < header.names.length then
    match policy with
    | .strict => .error ⟨header.size, row.length⟩
    | .skipShort => .ok .skipped
    | .lenient =>
        .ok (.document
          ⟨header, row ++ List.replicate (header.names.length - row.length) "", by
            simp only [List.length_append, List.length_replicate]; omega⟩)
  else .error ⟨header.size, row.length⟩

end CsvImport
