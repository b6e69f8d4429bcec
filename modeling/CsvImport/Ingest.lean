import CsvImport.Document.Writer
import CsvImport.Metrics

/-!
# Ingestion

An ingester decodes a chunk, pairs its rows with a header and writes one line
per document.  It stops at the first item that fails and reports what it had done
before.
-/

namespace CsvImport

/-- How many documents were written and how many rows left out. -/
structure Counts where
  written : Nat := 0
  skipped : Nat := 0
deriving DecidableEq, Repr, Inhabited

namespace Counts

instance : Add Counts := ⟨fun a b => ⟨a.written + b.written, a.skipped + b.skipped⟩⟩

def sum (all : List Counts) : Counts :=
  all.foldl (· + ·) {}

end Counts

/-- Why a chunk failed, with the counts before the failing record. -/
inductive IngestError where
  | decode (source : DecodeError) (before : Counts)
  | assemble (source : ArityMismatch) (line : Nat) (before : Counts)
  | encode (source : WriteError) (line : Nat) (before : Counts)
deriving DecidableEq, Repr, Inhabited

namespace IngestError

def kind : IngestError → FailureKind
  | decode source _ => source.kind
  | assemble .. => .arityMismatch
  | encode .. => .io

def line : IngestError → Nat
  | decode source _ => source.line
  | assemble _ line _ => line
  | encode _ line _ => line

def before : IngestError → Counts
  | decode _ before => before
  | assemble _ _ before => before
  | encode _ _ before => before

/-- What was done before the failure, in words. -/
def progress (before : Counts) : String :=
  " (" ++ toString before.written ++ " written, " ++ toString before.skipped ++
    " skipped before failure)"

def message : IngestError → String
  | decode source before => source.message ++ progress before
  | assemble source line before =>
      "Line " ++ toString line ++ ": " ++ source.message ++ progress before
  | encode source line before =>
      "Line " ++ toString line ++ ": " ++ source.message ++ progress before

end IngestError

/-- An ingestion under way. -/
structure Ingestion where
  writer : Writer
  counts : Counts := {}
  /-- How many blank lines were passed over. -/
  blank : Nat := 0
deriving DecidableEq, Repr, Inhabited

namespace Ingestion

def record (run : Ingestion) (m : Metrics) : Metrics :=
  m.ingested run.counts.written run.counts.skipped run.blank

end Ingestion

structure Ingester where
  header : Header
  dialect : Dialect := {}
  policy : ArityPolicy := .lenient
deriving DecidableEq, Repr

namespace Ingester

def items (ingester : Ingester) (run : Ingestion) :
    List (Except DecodeError (Item String)) → Option IngestError × Ingestion
  | [] => (none, run)
  | .error e :: _ => (some (.decode e run.counts), run)
  | .ok .blank :: later => ingester.items { run with blank := run.blank + 1 } later
  | .ok (.row row) :: later =>
      match assemble ingester.policy ingester.header row.fields with
      | .error mismatch => (some (.assemble mismatch row.line run.counts), run)
      | .ok .skipped => ingester.items { run with counts := run.counts + ⟨0, 1⟩ } later
      | .ok (.document doc) =>
          match run.writer.write doc with
          | (.error e, writer) => (some (.encode e row.line run.counts), { run with writer })
          | (.ok (), writer) =>
              ingester.items { run with writer, counts := run.counts + ⟨1, 0⟩ } later

def ingest (ingester : Ingester) (decoder : Decoder) (sink : Sink) :
    Except IngestError Counts × Ingestion :=
  let (failure, run) := ingester.items { writer := { sink } } (decoder.records ingester.dialect).1
  match failure with
  | none => (.ok run.counts, run)
  | some e => (.error e, run)

end Ingester

end CsvImport
