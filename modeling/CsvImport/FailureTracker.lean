import CsvImport.FailureLog

/-!
# The failure tracker

The tracker keeps the failures of a job in the order in which they were recorded,
passes them to the failure log, and says when there are too many.
-/

namespace CsvImport

structure FailureTracker where
  /-- How many failures stop the job; zero for no limit. -/
  limit : Nat := 0
  failures : List Failure := []
  log : Option FailureLog := none
deriving DecidableEq, Repr, Inhabited

/-- The failures that stopped a job: how many, and the first of them. -/
structure FailureExcess where
  count : Nat
  first : Failure
deriving DecidableEq, Repr, Inhabited

def FailureExcess.message (excess : FailureExcess) : String :=
  "Max failures exceeded: " ++ toString excess.count ++ " failed chunks, first " ++
    excess.first.chunk.text ++ " at line " ++ toString excess.first.line ++ ": " ++
    excess.first.message

namespace FailureTracker

def size (tracker : FailureTracker) : Nat :=
  tracker.failures.length

def notice (failure : Failure) : String :=
  "Chunk failed: " ++ failure.message ++ " chunk=" ++ failure.chunk.text ++ " line=" ++
    toString failure.line ++ " kind=" ++ Text.quoted failure.kind.code

/-- Finish the failure log; an error of that is only noticed. -/
def finalizeLog (tracker : FailureTracker) (session : Session) : FailureTracker × Session :=
  match tracker.log with
  | none => (tracker, session)
  | some log =>
      match log.finalize session with
      | (.ok _, log, session) => ({ tracker with log := some log }, session)
      | (.error e, log, session) =>
          ({ tracker with log := some log },
            session.tell .failures .error ("Failed to finalize DLQ: " ++ e.notice))

def writeLog (tracker : FailureTracker) (failure : Failure) (now : Timestamp) (session : Session) :
    FailureTracker × Session :=
  match tracker.log with
  | none => (tracker, session)
  | some log =>
      let (log, session) := log.record failure now session
      ({ tracker with log := some log }, session)

/-- The failures, if there are as many as the limit. -/
def excess? (tracker : FailureTracker) : Option FailureExcess :=
  if tracker.limit = 0 ∨ tracker.size < tracker.limit then none
  else tracker.failures.head?.map fun first => ⟨tracker.size, first⟩

/--
Record a failure.  When that makes too many, the failure log is finished and the
failures are returned.
-/
def record (tracker : FailureTracker) (failure : Failure) (now : Timestamp) (session : Session) :
    Option FailureExcess × FailureTracker × Session :=
  let session := (session.tell .failures .warn (notice failure)).count (·.chunksEnded .failed 1)
  let (tracker, session) := tracker.writeLog failure now session
  let tracker := { tracker with failures := tracker.failures ++ [failure] }
  match tracker.excess? with
  | none => (none, tracker, session)
  | some excess =>
      let session := session.tell .failures .error
        ("Max failures (" ++ toString excess.count ++ ") reached, stopping import")
      let (tracker, session) := tracker.finalizeLog session
      (some excess, tracker, session)

end FailureTracker

end CsvImport
