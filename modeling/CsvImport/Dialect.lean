import CsvImport.Bytes

/-!
# Dialects

A dialect names the byte between two fields and the byte around a quoted
field, and says whether header names lose their surrounding white space.
-/

namespace CsvImport

structure Dialect where
  /-- The byte between two fields. -/
  delimiter : UInt8 := 44
  /-- The byte around a quoted field. -/
  quote : UInt8 := 34
  /-- Whether header names are trimmed. -/
  trimHeader : Bool := false
deriving DecidableEq, Repr, Inhabited

namespace Dialect

/--
The dialects that a job may use: both bytes are ASCII, they differ, and
neither ends a line.
-/
structure Accepted (d : Dialect) : Prop where
  delimiter_ascii : d.delimiter < 128
  quote_ascii : d.quote < 128
  delimiter_ne_quote : d.delimiter ≠ d.quote
  delimiter_ne_lf : d.delimiter ≠ Bytes.lf
  delimiter_ne_cr : d.delimiter ≠ Bytes.cr
  quote_ne_lf : d.quote ≠ Bytes.lf
  quote_ne_cr : d.quote ≠ Bytes.cr

end Dialect

end CsvImport
