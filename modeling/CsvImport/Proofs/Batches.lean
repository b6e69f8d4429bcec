import CsvImport.FailureTracker
import CsvImport.Proofs.BatchNames
import Mathlib.Data.List.Forall2

/-!
# Batches

A failure log is its batches, one behind the other, and the records that wait for the next
one.  As long as no write fails, every failure has its record there, in order.
-/

namespace CsvImport

namespace FailureRecord

/-- The record tells of the failure. -/
structure Tells (record : FailureRecord) (failure : Failure) : Prop where
  chunk : record.chunk = failure.chunk.text
  source : record.source = failure.chunk.source
  kind : record.kind = failure.kind
  message : record.message = failure.message
  line : record.line = failure.line

theorem tells_ofFailure (failure : Failure) (time : Timestamp) :
    (ofFailure failure time).Tells failure :=
  ⟨rfl, rfl, rfl, rfl, rfl⟩

def bytes (records : List FailureRecord) : Bytes :=
  records.flatMap fun record => Utf8.encode record.textLine

end FailureRecord

namespace FailureLog

def object? (log : FailureLog) (store : Store) (batch : Nat) : Option Bytes :=
  log.provider.object? store (log.batchName batch)

/-- All failures are in the batches of a log that was opened as `first`, or wait in it. -/
structure Tracks (first log : FailureLog) (store : Store) (batches : List (List FailureRecord))
    (failures : List Failure) : Prop where
  provider : log.provider = first.provider
  stem : log.stem = first.stem
  stands : first.provider.Stands store
  number : log.batches = batches.length
  objects : ∀ batch, first.object? store batch = batches[batch]?.map FailureRecord.bytes
  records : List.Forall₂ FailureRecord.Tells (batches.flatten ++ log.pending) failures

/-- Whole batches, and fewer records than a batch that wait for the next one. -/
structure Filling (log : FailureLog) (batches : List (List FailureRecord)) : Prop where
  whole : ∀ batch ∈ batches, batch.length = batchSize
  waiting : log.pending.length < batchSize

/-- Whole batches before the last one, and no record that waits. -/
structure Complete (log : FailureLog) (batches : List (List FailureRecord)) : Prop where
  whole : ∀ batch ∈ batches.dropLast, batch.length = batchSize
  last : ∀ batch ∈ batches.getLast?, 1 ≤ batch.length ∧ batch.length ≤ batchSize
  waiting : log.pending = []

section

variable {first log : FailureLog} {store : Store} {batches : List (List FailureRecord)}
  {failures : List Failure}

/-- Where the batches are spared, the log is kept. -/
theorem Tracks.spared {after : Store} (tracks : first.Tracks log store batches failures)
    (spares : ∀ batch, first.provider.Spares (first.batchName batch) store after) :
    first.Tracks log after batches failures :=
  { tracks with
    stands := (spares 0).stands tracks.stands
    objects := fun batch => ((spares batch).object tracks.stands).trans (tracks.objects batch) }

/-! ## Errors of the store -/

theorem putErrors_put (provider : Provider) (store : Store) (key : Key) (bytes : Bytes) :
    store.requests.putErrors ≤ (provider.put store key bytes).2.requests.putErrors := by
  have counted : ∀ (counts : RequestCounts) (succeeded : Bool),
      counts.putErrors ≤ (counts.put succeeded).putErrors := by
    intro counts succeeded
    cases succeeded
    · exact Nat.le_succ _
    · exact Nat.le_refl _
  unfold Provider.put
  simp only
  split
  · exact counted _ _
  · refine Nat.le_trans (Nat.le_of_eq ?_) (counted _ _)
    rw [Provider.requests_place]

/-- Errors are counted, never forgotten. -/
theorem putErrors_flush (log : FailureLog) (session : Session) :
    session.store.requests.putErrors ≤ (log.flush session).2.2.store.requests.putErrors := by
  unfold flush
  split
  · exact Nat.le_refl _
  · have put := putErrors_put log.provider session.store (Key.ofText (log.batchName log.batches))
      log.batchBytes
    simp only
    generalize log.provider.put session.store _ log.batchBytes = written at put ⊢
    rcases written with ⟨_ | _, store⟩ <;> exact put

theorem putErrors_record (log : FailureLog) (failure : Failure) (now : Timestamp)
    (session : Session) :
    session.store.requests.putErrors ≤
      (log.record failure now session).2.store.requests.putErrors := by
  unfold record
  simp only
  split
  · exact Nat.le_refl _
  · have flushed := putErrors_flush (log.append failure now) (session.tell .failureLog .debug
      ("Recording DLQ failure: " ++ failure.chunk.text ++ " (" ++ failure.kind.code ++ ")"))
    generalize (log.append failure now).flush _ = ended at flushed ⊢
    rcases ended with ⟨_ | _, after, later⟩ <;> exact flushed

theorem putErrors_finalize (log : FailureLog) (session : Session) :
    session.store.requests.putErrors ≤ (log.finalize session).2.2.store.requests.putErrors := by
  have flushed := putErrors_flush log session
  unfold finalize
  generalize log.flush session = ended at flushed ⊢
  rcases ended with ⟨_ | _, after, later⟩
  · exact flushed
  · simp only
    split <;> exact flushed

/-! ## What is in the batches -/

/-- A log that was opened holds nothing, and its place is there. -/
theorem open?_cases {now : Timestamp} {url : String} {session opened : Session}
    (isOpen : open? now url session = (.ok log, opened)) :
    ∃ provider : Provider, log = { provider, stem := stemAt now } ∧
      provider.Stands opened.store := by
  unfold open? at isOpen
  rcases provided : Provider.ofUrl session.store url false with ⟨_ | provider, store⟩
  · simp only [provided] at isOpen
    cases isOpen
  · simp only [provided] at isOpen
    cases isOpen
    exact ⟨provider, rfl, Provider.stands_ofUrl provided⟩

theorem flush_of_no_pending (none : log.pending = []) (session : Session) :
    log.flush session = (.ok (), log, session) := by
  unfold flush
  rw [none]
  rfl

/-- How flushing a log ends that has something to write: there is one batch more, or nothing has
changed. -/
theorem flush_cases (provider : log.provider = first.provider) (stem : log.stem = first.stem)
    (plain : ∀ batch, Key.Plain (first.batchName batch)) (session : Session)
    (stands : first.provider.Stands session.store) (waits : log.pending ≠ []) :
    (∃ later,
      log.flush session = (.ok (), { log with pending := [], batches := log.batches + 1 }, later) ∧
      later.store.requests = session.store.requests.put true ∧ first.provider.Stands later.store ∧
      ∀ name, Key.Plain name → first.provider.object? later.store name =
        if name = first.batchName log.batches then some (FailureRecord.bytes log.pending)
        else first.provider.object? session.store name) ∨
    ∃ e later, log.flush session = (.error e, log, later) ∧
      later.store.requests = session.store.requests.put false ∧
      first.provider.Stands later.store ∧
      ∀ name, first.provider.object? later.store name =
        first.provider.object? session.store name := by
  unfold flush
  rw [if_neg (by simpa using waits)]
  simp only [batchName_congr stem, provider]
  rcases Provider.put_cases (plain log.batches) stands log.batchBytes with
    ⟨after, put, requests, stood, objects⟩ | ⟨e, after, put, requests, stood, objects⟩
  · rw [put]
    exact .inl ⟨_, rfl, requests, stood, objects⟩
  · rw [put]
    exact .inr ⟨_, _, rfl, requests, stood, objects⟩

/-- How flushing a log ends: the pending records are a batch, or an error is counted. -/
theorem Tracks.flush (session : Session) (tracks : first.Tracks log session.store batches failures)
    (plain : ∀ batch, Key.Plain (first.batchName batch)) (some : log.pending ≠ []) :
    (∃ after later, log.flush session = (.ok (), after, later) ∧
        later.store.requests.putErrors = session.store.requests.putErrors ∧
        after.pending = [] ∧
        first.Tracks after later.store (batches ++ [log.pending]) failures) ∨
      ∃ e later, log.flush session = (.error e, log, later) ∧
        later.store.requests.putErrors = session.store.requests.putErrors + 1 := by
  rcases flush_cases tracks.provider tracks.stem plain session tracks.stands some with
    ⟨later, flushed, requests, stands, objects⟩ | ⟨e, later, flushed, requests, -, -⟩
  · refine .inl ⟨_, later, flushed, (congrArg RequestCounts.putErrors requests).trans rfl, rfl, ?_⟩
    exact {
      provider := tracks.provider
      stem := tracks.stem
      stands := stands
      number := by
        change log.batches + 1 = _
        rw [tracks.number, List.length_append, List.length_singleton]
      -- The new object is the one at the end; the names of the others differ from its name.
      objects := by
        intro batch
        have known := objects (first.batchName batch) (plain batch)
        simp only [batchName_inj] at known
        rw [tracks.number] at known
        refine known.trans ?_
        by_cases last : batch = batches.length
        · rw [if_pos last, last, List.getElem?_concat_length]
          rfl
        · rw [if_neg last]
          refine (tracks.objects batch).trans ?_
          by_cases earlier : batch < batches.length
          · rw [List.getElem?_append_left earlier]
          · rw [List.getElem?_eq_none (by omega), List.getElem?_eq_none]
            rw [List.length_append, List.length_singleton]
            omega
      records := by
        rw [List.flatten_append, List.flatten_singleton, List.append_nil]
        exact tracks.records }
  · exact .inr ⟨e, later, flushed, (congrArg RequestCounts.putErrors requests).trans rfl⟩

/-- A failure that is kept waits behind those before it. -/
theorem Tracks.append (tracks : first.Tracks log store batches failures) (failure : Failure)
    (now : Timestamp) :
    first.Tracks (log.append failure now) store batches (failures ++ [failure]) :=
  { tracks with
    records := by
      change List.Forall₂ _ (batches.flatten ++ (log.pending ++ [_])) _
      rw [← List.append_assoc]
      exact List.rel_append tracks.records (.cons (FailureRecord.tells_ofFailure ..) .nil) }

/-- Recording a failure adds it to the log, unless an error is counted. -/
theorem Tracks.record (session : Session)
    (tracks : first.Tracks log session.store batches failures)
    (plain : ∀ batch, Key.Plain (first.batchName batch)) (filling : log.Filling batches)
    (failure : Failure) (now : Timestamp) :
    let recorded := log.record failure now session
    recorded.2.store.requests.putErrors = session.store.requests.putErrors →
      ∃ batches, first.Tracks recorded.1 recorded.2.store batches (failures ++ [failure]) ∧
        recorded.1.Filling batches := by
  have tracked := tracks.append failure now
  have length : (log.append failure now).pending.length = log.pending.length + 1 :=
    List.length_append
  have waiting := filling.waiting
  unfold FailureLog.record
  simp only
  split
  · rename_i small
    exact fun _ => ⟨batches, tracked, filling.whole, small⟩
  · rename_i full
    have some : (log.append failure now).pending ≠ [] := by
      rw [← List.length_pos_iff, length]
      exact Nat.succ_pos _
    rcases tracked.flush (session.tell .failureLog .debug _) plain some with
      ⟨after, later, flushed, errors, none, tracks⟩ | ⟨e, later, flushed, errors⟩
    · rw [flushed]
      refine fun _ => ⟨_, tracks, ?_, ?_⟩
      · intro batch member
        rcases List.mem_append.mp member with earlier | last
        · exact filling.whole batch earlier
        · rw [List.mem_singleton.mp last]
          omega
      · rw [none]
        decide
    · rw [flushed]
      exact fun same => absurd (errors.symm.trans same) (Nat.succ_ne_self _)

/-- Finishing a log leaves no record waiting, unless an error is counted. -/
theorem Tracks.finalize (session : Session)
    (tracks : first.Tracks log session.store batches failures)
    (plain : ∀ batch, Key.Plain (first.batchName batch)) (filling : log.Filling batches) :
    let finished := log.finalize session
    finished.2.2.store.requests.putErrors = session.store.requests.putErrors →
      ∃ batches, first.Tracks finished.2.1 finished.2.2.store batches failures ∧
        finished.2.1.Complete batches := by
  have waiting := filling.waiting
  have said : ∀ (session : Session) (total : Nat) (text : String),
      (if total = 0 then session else session.tell .failureLog .info text).store =
        session.store := by
    intro session total text
    split <;> rfl
  unfold FailureLog.finalize
  by_cases none : log.pending = []
  · rw [flush_of_no_pending none]
    simp only [said]
    refine fun _ => ⟨batches, tracks, ?_, ?_, none⟩
    · exact fun batch member => filling.whole batch ((List.dropLast_prefix batches).subset member)
    · intro batch last
      rw [filling.whole batch (List.mem_of_mem_getLast? last)]
      decide
  · rcases tracks.flush session plain none with
      ⟨after, later, flushed, errors, empty, tracks⟩ | ⟨e, later, flushed, errors⟩
    · rw [flushed]
      simp only [said]
      refine fun _ => ⟨_, tracks, ?_, ?_, empty⟩
      · rw [List.dropLast_concat]
        exact filling.whole
      · intro batch last
        rw [List.getLast?_concat] at last
        obtain rfl := Option.some.inj last
        exact ⟨List.length_pos_iff.mpr none, Nat.le_of_lt waiting⟩
    · rw [flushed]
      exact fun same => absurd (errors.symm.trans same) (Nat.succ_ne_self _)

end

end FailureLog

end CsvImport
