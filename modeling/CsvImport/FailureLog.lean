import CsvImport.FailureLog.Record
import CsvImport.FailureLog.Statistics
import CsvImport.Session

/-!
# The failure log

Failures are collected and written in batches.  Each batch is an object of its own, so
that a batch once written is never written again; records whose batch could not be
written are kept for the next one.
-/

namespace CsvImport

/-- Why the failure log could not do what was asked. -/
inductive FailureLogError where
  /-- The place of the log could not be opened. -/
  | opening (source : StorageError)
  /-- A batch could not be written. -/
  | writing (source : StorageError)
deriving DecidableEq, Repr, Inhabited

namespace FailureLogError

def source : FailureLogError → StorageError
  | opening source => source
  | writing source => source

def activity : FailureLogError → String
  | opening _ => "Failed to create DLQ storage: "
  | writing _ => "Failed to write to DLQ: "

def message? (error : FailureLogError) : Option String :=
  error.source.message?.map (error.activity ++ ·)

def notice (error : FailureLogError) : String :=
  error.activity ++ error.source.message?.getD "Storage operation failed"

end FailureLogError

structure FailureLog where
  provider : Provider
  /-- How the names of all batches begin. -/
  stem : String
  /-- Records that are not in a batch yet. -/
  pending : List FailureRecord := []
  /-- How many batches were written. -/
  batches : Nat := 0
  statistics : FailureStatistics := {}
deriving DecidableEq, Repr, Inhabited

namespace FailureLog

/-- How many records make a batch that is written at once. -/
def batchSize : Nat := 100

/-- How the names of the batches of a log begin that is opened at a time. -/
def stemAt (now : Timestamp) : String :=
  "failures-" ++ now.compactText

def open? (now : Timestamp) (url : String) (session : Session) :
    Except FailureLogError FailureLog × Session :=
  match Provider.ofUrl session.store url false with
  | (.error e, store) => (.error (.opening e), { session with store })
  | (.ok provider, store) =>
      let stem := stemAt now
      (.ok { provider, stem },
        { session with store }.tell .failureLog .info
          ("DLQ enabled: " ++ url ++ "/" ++ stem ++ "-*.ndjson"))

def batchName (log : FailureLog) (batch : Nat) : String :=
  log.stem ++ "-" ++ String.ofList (Timestamp.padded 4 batch) ++ ".ndjson"

def batchBytes (log : FailureLog) : Bytes :=
  log.pending.flatMap fun record => Utf8.encode record.textLine

/-- Write the pending records as a batch, if there are any. -/
def flush (log : FailureLog) (session : Session) :
    Except FailureLogError Unit × FailureLog × Session :=
  if log.pending.isEmpty then (.ok (), log, session)
  else
    let name := log.batchName log.batches
    match log.provider.put session.store (Key.ofText name) log.batchBytes with
    | (.error e, store) => (.error (.writing e), log, { session with store })
    | (.ok (), store) =>
        (.ok (), { log with pending := [], batches := log.batches + 1 },
          { session with store }.tell .failureLog .debug
            ("Flushed " ++ toString log.pending.length ++ " records to DLQ as " ++ name))

def append (log : FailureLog) (failure : Failure) (now : Timestamp) : FailureLog :=
  { log with
    statistics := log.statistics.increment failure.kind
    pending := log.pending ++ [.ofFailure failure now] }

/-- Record a failure; a full batch is written, and an error of that is only noticed. -/
def record (log : FailureLog) (failure : Failure) (now : Timestamp) (session : Session) :
    FailureLog × Session :=
  let session := session.tell .failureLog .debug
    ("Recording DLQ failure: " ++ failure.chunk.text ++ " (" ++ failure.kind.code ++ ")")
  let log := log.append failure now
  if log.pending.length < batchSize then (log, session)
  else
    match log.flush session with
    | (.ok (), log, session) => (log, session)
    | (.error e, log, session) =>
        (log, session.tell .failureLog .error ("Failed to flush DLQ: " ++ e.notice))

def finalize (log : FailureLog) (session : Session) :
    Except FailureLogError FailureStatistics × FailureLog × Session :=
  match log.flush session with
  | (.error e, log, session) => (.error e, log, session)
  | (.ok (), log, session) =>
      let total := log.statistics.total
      (.ok log.statistics, log,
        if total = 0 then session
        else session.tell .failureLog .info ("DLQ finalized: " ++ toString total ++
          " total failures (" ++ log.statistics.text ++ ")"))

end FailureLog

end CsvImport
