import CsvImport.Document
import CsvImport.Json.Printer
import CsvImport.Sink

/-!
# Writing documents

A document is written as one JSON object on a line of its own.
-/

namespace CsvImport

namespace Document

def toJson (doc : Document) : Json.Value :=
  .object (doc.fields.map fun (name, value) => (name, .string value))

/-- The line of the document, line feed included. -/
def line (doc : Document) : String :=
  Json.render doc.toJson ++ "\n"

end Document

/-- The cause why bytes could not be written. -/
structure WriteError where
  cause : String
deriving DecidableEq, Repr, Inhabited

def WriteError.message (error : WriteError) : String :=
  "Failed to write document: " ++ error.cause

structure Writer where
  sink : Sink
  /-- The total size of the lines written whole. -/
  bytesWritten : Nat := 0
deriving DecidableEq, Repr, Inhabited

namespace Writer

/-- A line is offered again when a write of it was broken off. -/
def rule : WriteRule := { nothingTaken := "failed to write whole buffer", persists := true }

def write (writer : Writer) (doc : Document) : Except WriteError Unit × Writer :=
  let bytes := Utf8.encode doc.line
  match writer.sink.writeAll rule bytes with
  | (.error cause, sink) => (.error ⟨cause⟩, { writer with sink })
  | (.ok (), sink) => (.ok (), ⟨sink, writer.bytesWritten + bytes.length⟩)

def flush (writer : Writer) : Except WriteError Unit × Writer :=
  let (result, sink) := writer.sink.flush
  (result.mapError WriteError.mk, { writer with sink })

end Writer

end CsvImport
