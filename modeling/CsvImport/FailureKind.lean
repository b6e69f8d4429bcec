/-!
# Kinds of failure

The flat classification under which failures are counted, logged and
reported.
-/

namespace CsvImport

/-- What went wrong, without the particulars. -/
inductive FailureKind where
  | emptyHeaderField
  | duplicateHeaderField
  | unterminatedQuote
  | arityMismatch
  | io
deriving DecidableEq, Repr, Inhabited

namespace FailureKind

def code : FailureKind → String
  | emptyHeaderField => "empty_header_field"
  | duplicateHeaderField => "duplicate_header_field"
  | unterminatedQuote => "unterminated_quote"
  | arityMismatch => "arity_mismatch"
  | io => "io"

def all : List FailureKind :=
  [emptyHeaderField, duplicateHeaderField, unterminatedQuote, arityMismatch, io]

def ofCode? (text : String) : Option FailureKind :=
  all.find? fun kind => kind.code == text

theorem ofCode?_code (kind : FailureKind) : ofCode? kind.code = some kind := by
  cases kind <;> decide

end FailureKind

end CsvImport
