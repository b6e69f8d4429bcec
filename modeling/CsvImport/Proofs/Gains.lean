import CsvImport.Job.Progress
import CsvImport.Proofs.Writing
import Mathlib.Algebra.GroupWithZero.Nat

/-!
# Gains

Everything a job does to its output and to its summary is a gain: outputs written,
failures recorded, chunks given up.  The gains of consecutive steps add up.
-/

namespace CsvImport

/-- What a job gained between two of its states. -/
structure Gain where
  /-- The outputs that were written whole, in order. -/
  outputs : List ChunkOutput := []
  /-- What was written of an output that could not be written whole. -/
  tail : Bytes := []
  /-- The failures that were recorded, in order. -/
  failures : List Failure := []
  /-- How many chunks were given up. -/
  cancelled : Nat := 0
  /-- Whether chunks were given up at all, even if none was left. -/
  stopped : Bool := false
deriving DecidableEq, Repr

namespace Gain

def bytes (gain : Gain) : Bytes :=
  gain.outputs.flatMap (·.bytes) ++ gain.tail

/-- Two gains one after the other; the first has no tail. -/
def andThen (first second : Gain) : Gain :=
  { outputs := first.outputs ++ second.outputs
    tail := second.tail
    failures := first.failures ++ second.failures
    cancelled := first.cancelled + second.cancelled
    stopped := first.stopped || second.stopped }

theorem andThen_empty {gain : Gain} (whole : gain.tail = []) : gain.andThen {} = gain := by
  cases gain
  cases whole
  simp [andThen]

theorem empty_andThen (gain : Gain) : ({} : Gain).andThen gain = gain := by
  simp [andThen]

theorem andThen_assoc (first second third : Gain) :
    (first.andThen second).andThen third = first.andThen (second.andThen third) := by
  simp [andThen, Nat.add_assoc, Bool.or_assoc]

theorem bytes_andThen {first : Gain} (whole : first.tail = []) (second : Gain) :
    (first.andThen second).bytes = first.bytes ++ second.bytes := by
  simp [bytes, andThen, whole]

end Gain

namespace Run

/-- The job went from one state to the other with this gain. -/
structure Gains (before after : Run) (gain : Gain) : Prop where
  /-- The output holds the bytes of the gain; a file does if no failure log is on its disk. -/
  holds : before.output.isSink ∨ before.tracker.log = none →
    ∀ held, before.output.Holds before.session held →
      after.output.Holds after.session (held ++ gain.bytes)
  isSink : after.output.isSink = before.output.isSink
  flushes : after.output.flushes = before.output.flushes
  accepting : before.output.Accepting → after.output.Accepting
  limit : after.tracker.limit = before.tracker.limit
  log : before.tracker.log = none → after.tracker.log = none
  failures : after.tracker.failures = before.tracker.failures ++ gain.failures
  written : after.summary.counts.written =
    before.summary.counts.written + (gain.outputs.map (·.counts.written)).sum
  skipped : after.summary.counts.skipped =
    before.summary.counts.skipped + (gain.outputs.map (·.counts.skipped)).sum
  bytesWritten : after.summary.bytesWritten =
    before.summary.bytesWritten + (gain.outputs.map (·.bytes.length)).sum
  succeeded : after.summary.chunksSucceeded =
    before.summary.chunksSucceeded + gain.outputs.length
  failed : after.summary.chunksFailed = before.summary.chunksFailed + gain.failures.length
  cancelled : after.summary.chunksCancelled = before.summary.chunksCancelled + gain.cancelled
  stopped : after.summary.cancelled = (before.summary.cancelled || gain.stopped)

theorem Gains.trans {before between after : Run} {first second : Gain}
    (former : before.Gains between first) (whole : first.tail = [])
    (latter : between.Gains after second) : before.Gains after (first.andThen second) where
  holds := by
    intro own held holding
    have owned : between.output.isSink ∨ between.tracker.log = none := by
      rcases own with sink | none
      · exact .inl (former.isSink.trans sink)
      · exact .inr (former.log none)
    rw [Gain.bytes_andThen whole, ← List.append_assoc]
    exact latter.holds owned _ (former.holds own held holding)
  isSink := latter.isSink.trans former.isSink
  flushes := latter.flushes.trans former.flushes
  accepting := latter.accepting ∘ former.accepting
  limit := latter.limit.trans former.limit
  log := latter.log ∘ former.log
  failures := by rw [latter.failures, former.failures, List.append_assoc]; rfl
  written := by
    rw [latter.written, former.written, Gain.andThen, List.map_append, List.sum_append,
      Nat.add_assoc]
  skipped := by
    rw [latter.skipped, former.skipped, Gain.andThen, List.map_append, List.sum_append,
      Nat.add_assoc]
  bytesWritten := by
    rw [latter.bytesWritten, former.bytesWritten, Gain.andThen, List.map_append,
      List.sum_append, Nat.add_assoc]
  succeeded := by
    rw [latter.succeeded, former.succeeded, Gain.andThen, List.length_append, Nat.add_assoc]
  failed := by
    rw [latter.failed, former.failed, Gain.andThen, List.length_append, Nat.add_assoc]
  cancelled := by rw [latter.cancelled, former.cancelled, Gain.andThen, Nat.add_assoc]
  stopped := by rw [latter.stopped, former.stopped, Gain.andThen, Bool.or_assoc]

/-- Where neither the output nor the summary changes, nothing is gained. -/
theorem gains_nothing {before after : Run} (output : after.output = before.output)
    (tracker : after.tracker = before.tracker) (summary : after.summary = before.summary)
    (disk : before.output.isSink ∨ after.session.store = before.session.store) :
    before.Gains after {} where
  holds := by
    intro _ held holding
    rw [output, Gain.bytes, List.flatMap_nil, List.append_nil, List.append_nil]
    rcases disk with sink | same
    · exact holding.anywhere sink
    · exact holding.elsewhere (congrArg Store.disk same)
  isSink := by rw [output]
  flushes := by rw [output]
  accepting := by rw [output]; exact id
  limit := by rw [tracker]
  log := by rw [tracker]; exact id
  failures := by rw [tracker, List.append_nil]
  written := by rw [summary]; rfl
  skipped := by rw [summary]; rfl
  bytesWritten := by rw [summary]; rfl
  succeeded := by rw [summary]; rfl
  failed := by rw [summary]; rfl
  cancelled := by rw [summary]; rfl
  stopped := by rw [summary, Bool.or_false]

/-! ## What every operation gains -/

theorem gains_self (run : Run) : run.Gains run {} :=
  gains_nothing rfl rfl rfl (.inr rfl)

/-- Sources are counted, not gained. -/
theorem gains_sources (run : Run) (sources emptySources : Nat) :
    run.Gains { run with summary := { run.summary with sources, emptySources } } {} :=
  { run.gains_self with }

/-- A job that is stopped between two sources gives up no chunk. -/
theorem gains_skip (run : Run) :
    run.Gains { run with summary := { run.summary with cancelled := true } } { stopped := true } :=
  { run.gains_self with stopped := (Bool.or_true _).symm }

/-- With a sink, the session does not count. -/
theorem gains_session {run : Run} (isSink : run.output.isSink) (session : Session) :
    run.Gains { run with session } {} :=
  gains_nothing rfl rfl rfl (.inl isSink)

theorem gains_ask (run : Run) (schedule : Schedule) : run.Gains (run.ask schedule).2 {} :=
  gains_nothing rfl rfl rfl (.inr rfl)

theorem gains_tell (run : Run) (level : NoticeLevel) (text : String) :
    run.Gains (run.tell level text) {} :=
  gains_nothing rfl rfl rfl (.inr rfl)

theorem gains_count (run : Run) (change : Metrics → Metrics) :
    run.Gains (run.count change) {} :=
  gains_nothing rfl rfl rfl (.inr rfl)

theorem gains_addCancelled (run : Run) (amount : Nat) :
    run.Gains (run.addCancelled amount) { cancelled := amount, stopped := true } :=
  let nothing := gains_self run
  { nothing with
    holds := fun own held holding => (nothing.holds own held holding).elsewhere rfl
    cancelled := rfl
    stopped := (Bool.or_true _).symm }

/-- Bytes that are written are gained, whole or in part. -/
theorem gains_writeAll (run : Run) (bytes : Bytes) :
    ∃ added,
      run.Gains { run with
          output := (run.output.writeAll run.session bytes).2.1
          session := (run.output.writeAll run.session bytes).2.2 } { tail := added } ∧
      ((run.output.writeAll run.session bytes).1 = .ok () ∧ added = bytes ∨
        ∃ cause, (run.output.writeAll run.session bytes).1 = .error cause ∧
          added <+: bytes ∧ added ≠ bytes) := by
  obtain ⟨added, holds, result⟩ := run.output.holds_writeAll run.session bytes
  let nothing := gains_self run
  refine ⟨added, ?_, result⟩
  exact { nothing with
    holds := fun _ held holding => holds held holding
    isSink := run.output.isSink_writeAll run.session bytes
    flushes := run.output.flushes_writeAll run.session bytes
    accepting := fun accepting => (accepting.writeAll run.session bytes).2 }

/-- An output that was written whole is counted as a whole. -/
theorem Gains.addWritten {before after : Run} {ready : ChunkOutput}
    (written : before.Gains after { tail := ready.bytes }) (change : Metrics → Metrics) :
    before.Gains
      { after.count change with
        summary := after.summary.addWritten ready.counts ready.bytes.length }
      { outputs := [ready] } :=
  { written with
    holds := by
      intro own held holding
      have whole : Gain.bytes { outputs := [ready] } = Gain.bytes { tail := ready.bytes } := by
        simp [Gain.bytes]
      rw [whole]
      exact (written.holds own held holding).elsewhere rfl
    written := by
      change after.summary.counts.written + ready.counts.written = _
      rw [written.written]
      rfl
    skipped := by
      change after.summary.counts.skipped + ready.counts.skipped = _
      rw [written.skipped]
      rfl
    bytesWritten := by
      change after.summary.bytesWritten + ready.bytes.length = _
      rw [written.bytesWritten]
      rfl
    succeeded := by
      change after.summary.chunksSucceeded + 1 = _
      rw [written.succeeded]
      rfl }

/-- How writing outputs in order ends, and what it gains. -/
inductive Writes (path : String) (ready : List ChunkOutput) :
    Except FatalError Unit → Gain → Prop where
  | all : Writes path ready (.ok ()) { outputs := ready }
  /-- One of them could not be written whole. -/
  | cut {done later : List ChunkOutput} {next : ChunkOutput} {tail : Bytes} {cause : String}
      (order : ready = done ++ next :: later) (part : tail <+: next.bytes)
      (short : tail ≠ next.bytes) :
      Writes path ready (.error (.outputWrite path (some cause))) { outputs := done, tail }

theorem Writes.cons {path : String} {first : ChunkOutput} {ready : List ChunkOutput}
    {result : Except FatalError Unit} {gain : Gain} (rest : Writes path ready result gain) :
    Writes path (first :: ready) result (Gain.andThen { outputs := [first] } gain) := by
  cases rest with
  | all => exact .all
  | cut order part short => exact .cut (congrArg (first :: ·) order) part short

theorem writes_write (run : Run) (path : String) (ready : List ChunkOutput) :
    ∃ gain, run.Gains (run.write path ready).2 gain ∧
      Writes path ready (run.write path ready).1 gain := by
  induction ready generalizing run with
  | nil => exact ⟨{}, run.gains_self, .all⟩
  | cons first ready ih =>
      obtain ⟨added, gains, result⟩ := run.gains_writeAll first.bytes
      unfold write
      rcases written : run.output.writeAll run.session first.bytes with ⟨outcome, output, session⟩
      rw [written] at gains result
      rcases result with ⟨succeeded, rfl⟩ | ⟨cause, failed, part, short⟩
      · obtain rfl : outcome = .ok () := succeeded
        obtain ⟨gain, later, writes⟩ :=
          ih { Run.count { run with output, session } (·.chunksEnded .success 1) with
            summary := run.summary.addWritten first.counts first.bytes.length }
        exact ⟨_, (gains.addWritten _).trans rfl later, writes.cons⟩
      · obtain rfl : outcome = .error cause := failed
        exact ⟨_, gains, .cut (List.nil_append _).symm part short⟩

theorem write_of_accepting {run : Run} (accepting : run.output.Accepting) (path : String)
    (ready : List ChunkOutput) : (run.write path ready).1 = .ok () := by
  induction ready generalizing run with
  | nil => rfl
  | cons first ready ih =>
      obtain ⟨whole, still⟩ := accepting.writeAll run.session first.bytes
      unfold write
      rcases written : run.output.writeAll run.session first.bytes with ⟨outcome, output, session⟩
      rw [written] at whole still
      obtain rfl : outcome = .ok () := whole
      exact ih still

end Run

namespace FailureTracker

variable (tracker : FailureTracker) (failure : Failure) (now : Timestamp) (session : Session)

theorem finalizeLog_of_no_log (absent : tracker.log = none) :
    tracker.finalizeLog session = (tracker, session) := by
  unfold finalizeLog
  rw [absent]

theorem writeLog_of_no_log (absent : tracker.log = none) :
    tracker.writeLog failure now session = (tracker, session) := by
  unfold writeLog
  rw [absent]

/-- The failure log does not touch the failures themselves. -/
theorem failures_finalizeLog :
    (tracker.finalizeLog session).1.failures = tracker.failures ∧
      (tracker.finalizeLog session).1.limit = tracker.limit := by
  unfold finalizeLog
  split
  · exact ⟨rfl, rfl⟩
  · split <;> exact ⟨rfl, rfl⟩

theorem failures_writeLog :
    (tracker.writeLog failure now session).1.failures = tracker.failures ∧
      (tracker.writeLog failure now session).1.limit = tracker.limit := by
  unfold writeLog
  split <;> exact ⟨rfl, rfl⟩

/-- A failure is kept behind those before it. -/
theorem failures_record :
    (tracker.record failure now session).2.1.failures = tracker.failures ++ [failure] ∧
      (tracker.record failure now session).2.1.limit = tracker.limit := by
  have logged := failures_writeLog tracker failure now
    ((session.tell .failures .warn (notice failure)).count (·.chunksEnded .failed 1))
  unfold record
  simp only
  split
  · rw [← logged.1, ← logged.2]
    exact ⟨rfl, rfl⟩
  · rw [(failures_finalizeLog _ _).1, (failures_finalizeLog _ _).2, ← logged.1, ← logged.2]
    exact ⟨rfl, rfl⟩

/-- Without a failure log, recording a failure leaves the stores alone. -/
theorem record_of_no_log (absent : tracker.log = none) :
    (tracker.record failure now session).2.1.log = none ∧
      (tracker.record failure now session).2.2.store = session.store := by
  unfold record
  simp only [writeLog_of_no_log _ _ _ _ absent]
  split
  · exact ⟨absent, rfl⟩
  · let recorded := { tracker with failures := tracker.failures ++ [failure] }
    rw [finalizeLog_of_no_log recorded _ absent]
    exact ⟨absent, rfl⟩

theorem limit_ne_zero_of_record {excess : FailureExcess}
    (stopped : (tracker.record failure now session).1 = some excess) : tracker.limit ≠ 0 := by
  intro none
  have logged := failures_writeLog tracker failure now
    ((session.tell .failures .warn (notice failure)).count (·.chunksEnded .failed 1))
  unfold record at stopped
  simp only [excess?, logged.2, none, true_or, ↓reduceIte] at stopped
  cases stopped

end FailureTracker

namespace Run

theorem gains_fail (run : Run) (failure : Failure) (now : Timestamp) :
    run.Gains (run.fail failure now).2 { failures := [failure] } := by
  obtain ⟨kept, limit⟩ := run.tracker.failures_record failure now run.session
  let nothing := gains_self run
  refine { nothing with
    holds := ?_
    limit := limit
    log := fun none => (run.tracker.record_of_no_log failure now run.session none).1
    failures := kept
    failed := rfl }
  intro own held holding
  have same : held ++ Gain.bytes { failures := [failure] } = held := List.append_nil held
  rw [same]
  rcases own with sink | none
  · exact holding.anywhere sink
  · exact holding.elsewhere
      (congrArg Store.disk (run.tracker.record_of_no_log failure now run.session none).2)

end Run

end CsvImport
