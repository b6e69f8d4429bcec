import CsvImport.Job.Progress
import CsvImport.Proofs.Writing

/-!
# Totals

The counters among the metrics as numbers.  Most of what a job does leaves them alone: the
output and the failure log are not counted in them.
-/

namespace CsvImport

/-- The counters of records and of chunks; one that was never touched stands at zero. -/
structure Totals where
  written : Nat
  skipped : Nat
  succeeded : Nat
  failed : Nat
  cancelled : Nat
deriving DecidableEq, Repr

namespace Metrics

def totals (m : Metrics) : Totals where
  written := m.recordsWritten.getD 0
  skipped := m.recordsSkipped.getD 0
  succeeded := m.chunksSucceeded.getD 0
  failed := m.chunksFailed.getD 0
  cancelled := m.chunksCancelled.getD 0

theorem totals_cancelled (m : Metrics) (amount : Nat) :
    (m.chunksEnded .cancelled amount).totals =
      { m.totals with cancelled := m.totals.cancelled + amount } := by
  cases amount <;> rfl

end Metrics

namespace Session

def totals (session : Session) : Totals :=
  session.metrics.totals

end Session

/-! ## What does not count -/

theorem Output.metrics_writeAll (output : Output) (session : Session) (bytes : Bytes) :
    (output.writeAll session bytes).2.2.metrics = session.metrics := by
  obtain ⟨disk, same⟩ := output.writeAll_disk session bytes
  rw [same]

theorem Output.metrics_flush (output : Output) (session : Session) :
    (output.flush session).2.2.metrics = session.metrics := by
  cases output <;> rfl

namespace FailureLog

theorem metrics_flush (log : FailureLog) (session : Session) :
    (log.flush session).2.2.metrics = session.metrics := by
  unfold flush
  split
  · rfl
  · simp only
    split <;> rfl

theorem metrics_record (log : FailureLog) (failure : Failure) (now : Timestamp)
    (session : Session) : (log.record failure now session).2.metrics = session.metrics := by
  unfold record
  simp only
  split
  · rfl
  · generalize hasTold : session.tell .failureLog .debug _ = told
    have flushed := (log.append failure now).metrics_flush told
    rw [← hasTold] at flushed ⊢
    split
    · rename_i same
      rw [same] at flushed
      exact flushed
    · rename_i same
      rw [same] at flushed
      exact flushed

theorem metrics_finalize (log : FailureLog) (session : Session) :
    (log.finalize session).2.2.metrics = session.metrics := by
  have flushed := log.metrics_flush session
  unfold finalize
  split
  · rename_i same
    rw [same] at flushed
    exact flushed
  · rename_i same
    rw [same] at flushed
    simp only
    split <;> exact flushed

end FailureLog

namespace FailureTracker

theorem metrics_finalizeLog (tracker : FailureTracker) (session : Session) :
    (tracker.finalizeLog session).2.metrics = session.metrics := by
  unfold finalizeLog
  split
  · rfl
  · rename_i log _
    have finished := log.metrics_finalize session
    split
    · rename_i same
      rw [same] at finished
      exact finished
    · rename_i same
      rw [same] at finished
      exact finished

theorem metrics_writeLog (tracker : FailureTracker) (failure : Failure) (now : Timestamp)
    (session : Session) :
    (tracker.writeLog failure now session).2.metrics = session.metrics := by
  unfold writeLog
  split
  · rfl
  · exact FailureLog.metrics_record ..

/-- A failure is counted once, whatever becomes of the failure log. -/
theorem metrics_record (tracker : FailureTracker) (failure : Failure) (now : Timestamp)
    (session : Session) :
    (tracker.record failure now session).2.2.metrics = session.metrics.chunksEnded .failed 1 := by
  let counted := (session.tell .failures .warn (notice failure)).count (·.chunksEnded .failed 1)
  have logged : (tracker.writeLog failure now counted).2.metrics = counted.metrics :=
    tracker.metrics_writeLog failure now counted
  unfold record
  simp only
  split
  · exact logged
  · exact (metrics_finalizeLog ..).trans logged

theorem totals_record (tracker : FailureTracker) (failure : Failure) (now : Timestamp)
    (session : Session) :
    (tracker.record failure now session).2.2.totals =
      { session.totals with failed := session.totals.failed + 1 } :=
  congrArg Metrics.totals (tracker.metrics_record failure now session)

end FailureTracker

end CsvImport
