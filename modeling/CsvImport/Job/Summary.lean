import CsvImport.Config
import CsvImport.Failure
import CsvImport.FailureTracker

/-!
# The outcome of a job

A job ends with a summary.  A fatal error stops it; once it has begun to read sources,
the summary goes with the error.
-/

namespace CsvImport

structure Summary where
  counts : Counts := {}
  /-- How many sources had a header. -/
  sources : Nat := 0
  /-- How many sources had no records at all. -/
  emptySources : Nat := 0
  chunksSucceeded : Nat := 0
  chunksFailed : Nat := 0
  /-- How many chunks were given up because of a shutdown. -/
  chunksCancelled : Nat := 0
  bytesWritten : Nat := 0
  /-- Whether the job was stopped by a shutdown. -/
  cancelled : Bool := false
  failures : List Failure := []
deriving DecidableEq, Repr, Inhabited

namespace Summary

def addWritten (summary : Summary) (counts : Counts) (bytes : Nat) : Summary :=
  { summary with
    counts := summary.counts + counts
    bytesWritten := summary.bytesWritten + bytes
    chunksSucceeded := summary.chunksSucceeded + 1 }

def addCancelled (summary : Summary) (amount : Nat) : Summary :=
  { summary with chunksCancelled := summary.chunksCancelled + amount, cancelled := true }

/-- The suffix of notices about a job that was stopped by a shutdown. -/
def cancelledSuffix (summary : Summary) : String :=
  if summary.cancelled then " (cancelled)" else ""

def brief (summary : Summary) : String :=
  toString summary.counts.written ++ " written, " ++ toString summary.counts.skipped ++
    " skipped, " ++ toString summary.chunksSucceeded ++ " chunks ok, " ++
    toString summary.chunksFailed ++ " failed"

end Summary

inductive FatalError where
  /-- A source could not be read. -/
  | sourceRead (path : String) (source : StorageError)
  /-- A source has no valid header. -/
  | header (path : String) (source : HeaderError)
  /-- The output could not be opened or written; the cause is given if a sink gave one. -/
  | outputWrite (path : String) (cause : Option String)
  | tooManyFailures (excess : FailureExcess)
deriving DecidableEq, Repr, Inhabited

namespace FatalError

def kind : FatalError → FailureKind
  | sourceRead .. => .io
  | header _ source => source.kind
  | outputWrite .. => .io
  | tooManyFailures excess => excess.first.kind

def message? : FatalError → Option String
  | sourceRead path source =>
      source.message?.map fun text => "Failed to read source " ++ path ++ ": " ++ text
  | header path source => some ("Invalid header in " ++ path ++ ": " ++ source.message)
  | outputWrite path cause =>
      cause.map fun text => "Failed to write output " ++ path ++ ": " ++ text
  | tooManyFailures excess => some excess.message

def report (error : FatalError) : String :=
  error.message?.getD
    (match error with
      | sourceRead path _ => "Failed to read source " ++ path
      | header path _ => "Invalid header in " ++ path
      | outputWrite path _ => "Failed to write output " ++ path
      | tooManyFailures excess => excess.message)

end FatalError

inductive JobError where
  | config (source : ConfigError)
  | failureLog (source : FailureLogError)
  /-- An error before the job began. -/
  | fatal (cause : FatalError)
  /-- An error that stopped the job. -/
  | aborted (cause : FatalError) (summary : Summary)
deriving DecidableEq, Repr, Inhabited

namespace JobError

def kind? : JobError → Option FailureKind
  | config _ => none
  | failureLog _ => none
  | fatal cause => some cause.kind
  | aborted cause _ => some cause.kind

def message? : JobError → Option String
  | config source => source.message?.map ("Configuration error: " ++ ·)
  | failureLog source => source.message?.map ("DLQ error: " ++ ·)
  | fatal cause => cause.message?
  | aborted cause summary =>
      cause.message?.map fun text =>
        "Import aborted after " ++ toString summary.counts.written ++ " documents written: " ++ text

def report (error : JobError) : String :=
  error.message?.getD
    (match error with
      | config .unreadable => "Configuration error: Failed to read configuration file"
      | config _ => "Configuration error: Failed to parse YAML configuration"
      | failureLog source => "DLQ error: " ++ source.notice
      | fatal cause => cause.report
      | aborted cause _ => cause.report)

end JobError

end CsvImport
