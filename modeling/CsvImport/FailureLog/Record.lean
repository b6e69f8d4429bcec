import CsvImport.Failure
import CsvImport.Json.Reader
import CsvImport.Timestamp

/-!
# Failure records

A failure is logged as one JSON object on a line of its own.
-/

namespace CsvImport

structure FailureRecord where
  /-- The written identity of the chunk. -/
  chunk : String
  source : String
  kind : FailureKind
  message : String
  line : Nat
  /-- When the failure was recorded. -/
  time : Timestamp
deriving DecidableEq, Repr, Inhabited

namespace FailureRecord

def ofFailure (failure : Failure) (time : Timestamp) : FailureRecord :=
  { chunk := failure.chunk.text, source := failure.chunk.source, kind := failure.kind
    message := failure.message, line := failure.line, time }

def members : List String :=
  ["chunk", "source", "kind", "message", "line", "timestamp"]

def toJson (record : FailureRecord) : Json.Value :=
  .object (members.zip
    [.string record.chunk, .string record.source, .string record.kind.code,
     .string record.message, .number (toString record.line), .string record.time.text])

/-- The line of the record, line feed included. -/
def textLine (record : FailureRecord) : String :=
  Json.render record.toJson ++ "\n"

/-- The record that a JSON value writes; members it does not know are passed over. -/
def ofJson? (value : Json.Value) : Option FailureRecord := do
  let [chunk, source, kind, message, line, time] ← Json.entries? members value | none
  let chunk ← (← chunk).toText?
  let source ← (← source).toText?
  let kind ← FailureKind.ofCode? (← Json.choice? (← kind))
  let message ← (← message).toText?
  let line ← (← line).toNat?
  let time ← Timestamp.parse? (← (← time).toText?)
  return { chunk, source, kind, message, line, time }

end FailureRecord

end CsvImport
