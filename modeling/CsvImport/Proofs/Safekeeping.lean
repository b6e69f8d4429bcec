import CsvImport.Proofs.FailureRecords
import CsvImport.Proofs.SharedLog
import Mathlib.Data.List.Nodup

/-!
# What a shared log keeps

Whatever tasks do with a log, in whatever order they take its lock, and whichever writes fail:
every failure that was recorded is in one batch, or waits for the next one, in the order of
recording.  The statistics count all of them.
-/

namespace CsvImport

/-- The statistics count these failures and no others. -/
structure FailureStatistics.Counts (statistics : FailureStatistics) (failures : List Failure) :
    Prop where
  kinds : ∀ kind, statistics.get kind = (failures.map Failure.kind).count kind
  total : statistics.total = failures.length

theorem FailureStatistics.Counts.increment {statistics : FailureStatistics}
    {failures : List Failure} (counts : statistics.Counts failures) (failure : Failure) :
    (statistics.increment failure.kind).Counts (failures ++ [failure]) where
  kinds kind := by
    rw [get_increment, counts.kinds, List.map_append, List.count_append, List.map_singleton,
      List.count_singleton]
    simp only [beq_iff_eq]
  total := by rw [total_increment, counts.total, List.length_append, List.length_singleton]

namespace FailureLog

variable {first log after : FailureLog} {start : Store} {session later : Session}
  {batches : List (List FailureRecord)} {events : List Event} {event : Event} {act : Act}
  {turn : Turn}

/-! ## Records -/

/-- The batches that were written to a store since the log was opened as `first`, and the records
that wait, are what was recorded. -/
structure Keeps (first : FailureLog) (start : Store) (batches : List (List FailureRecord))
    (log : FailureLog) (store : Store) (events : List Event) : Prop where
  provider : log.provider = first.provider
  stem : log.stem = first.stem
  stands : first.provider.Stands store
  number : log.batches = batches.length
  /-- Each batch was written once, under its own name. -/
  names : events.filterMap Event.written? = (List.range batches.length).map first.batchName
  puts : store.requests.putSuccesses = start.requests.putSuccesses + batches.length
  objects : ∀ batch < batches.length,
    first.object? store batch = batches[batch]?.map FailureRecord.bytes
  others : ∀ name, Key.Plain name → (∀ batch < batches.length, name ≠ first.batchName batch) →
    first.provider.object? store name = first.provider.object? start name
  records : batches.flatten ++ log.pending =
    (events.filterMap Event.kept?).map fun kept => .ofFailure kept.1 kept.2

namespace Keeps

/-- Where nothing is kept and nothing written, nothing has to be done. -/
theorem pass (keeps : first.Keeps start batches log session.store events)
    (written : event.written? = none) (kept : event.kept? = none) :
    first.Keeps start batches log session.store (events ++ [event]) :=
  { keeps with
    names := by rw [List.filterMap_append, List.filterMap_cons_none written, keeps.names]; simp
    records := by rw [List.filterMap_append, List.filterMap_cons_none kept, keeps.records]; simp }

/-- A record waits behind those before it. -/
theorem append (keeps : first.Keeps start batches log session.store events) (turn : Turn)
    (failure : Failure) :
    first.Keeps start batches (log.append failure turn.now) session.store
      (events ++ [.kept turn failure]) :=
  { keeps with
    names := by
      rw [List.filterMap_append, keeps.names]
      exact List.append_nil _
    records := by
      rw [List.filterMap_append, List.map_append, ← keeps.records, List.append_assoc]
      rfl }

/-- A batch that is written is the next one, and holds what waited. -/
theorem written (keeps : first.Keeps start batches log session.store events)
    (plain : ∀ batch, Key.Plain (first.batchName batch))
    (requests : later.store.requests = session.store.requests.put true)
    (stands : first.provider.Stands later.store)
    (objects : ∀ name, Key.Plain name → first.provider.object? later.store name =
      if name = first.batchName log.batches then some (FailureRecord.bytes log.pending)
      else first.provider.object? session.store name) :
    first.Keeps start (batches ++ [log.pending])
      { log with pending := [], batches := log.batches + 1 } later.store
      (events ++ [.wrote (first.batchName log.batches) (.ok ())]) := by
  have length : (batches ++ [log.pending]).length = batches.length + 1 := List.length_append
  have number := keeps.number
  exact {
    provider := keeps.provider
    stem := keeps.stem
    stands
    number := by
      change log.batches + 1 = _
      rw [length, number]
    names := by
      rw [List.filterMap_append, keeps.names, length, List.range_succ, List.map_append, number]
      rfl
    puts := by
      rw [requests, length, ← Nat.add_assoc, ← keeps.puts]
      rfl
    -- The new object is the last one; the names of those before differ from its name.
    objects := by
      intro batch within
      have known := objects (first.batchName batch) (plain batch)
      simp only [batchName_inj, number] at known
      refine known.trans ?_
      by_cases last : batch = batches.length
      · rw [if_pos last, last, List.getElem?_concat_length]
        rfl
      · have earlier : batch < batches.length := by omega
        rw [if_neg last, List.getElem?_append_left earlier]
        exact keeps.objects batch earlier
    others := by
      intro name plainName apart
      rw [length] at apart
      rw [objects name plainName, number, if_neg (apart _ (Nat.lt_succ_self _))]
      exact keeps.others name plainName fun batch within => apart batch (Nat.lt_succ_of_lt within)
    records := by
      rw [List.filterMap_append, List.map_append, ← keeps.records, List.flatten_append,
        List.flatten_singleton]
      rfl }

/-- A batch that is not written leaves every object as it was. -/
theorem refused (keeps : first.Keeps start batches log session.store events)
    (requests : later.store.requests = session.store.requests.put false)
    (stands : first.provider.Stands later.store)
    (objects : ∀ name, first.provider.object? later.store name =
      first.provider.object? session.store name)
    (written : event.written? = none) (kept : event.kept? = none) :
    first.Keeps start batches log later.store (events ++ [event]) := by
  have passed := keeps.pass written kept
  exact { passed with
    stands
    puts := (congrArg RequestCounts.putSuccesses requests).trans passed.puts
    objects := fun batch within => (objects _).trans (passed.objects batch within)
    others := fun name plainName apart =>
      (objects name).trans (passed.others name plainName apart) }

theorem without_more {store : Store} (keeps : first.Keeps start batches log store events) :
    ∃ more, first.Keeps start (batches ++ more) log store events :=
  ⟨[], by rwa [List.append_nil]⟩

theorem perform (keeps : first.Keeps start batches log session.store events)
    (plain : ∀ batch, Key.Plain (first.batchName batch))
    (performed : act.perform turn log session = (event, after, later)) :
    ∃ more, first.Keeps start (batches ++ more) after later.store (events ++ [event]) := by
  cases act with
  | append failure =>
      cases performed
      exact (keeps.append turn failure).without_more
  | read =>
      cases performed
      exact (keeps.pass rfl rfl).without_more
  | flush =>
      by_cases none : log.pending = []
      · rw [Act.perform_flush_none none] at performed
        cases performed
        exact (keeps.pass rfl rfl).without_more
      · rcases flush_cases keeps.provider keeps.stem plain session keeps.stands none with
          ⟨written, flushed, requests, stands, objects⟩ |
          ⟨e, refused, flushed, requests, stands, objects⟩
        · rw [Act.perform_flush_some none turn flushed, batchName_congr keeps.stem] at performed
          cases performed
          exact ⟨[log.pending], keeps.written plain requests stands objects⟩
        · rw [Act.perform_flush_some none turn flushed] at performed
          cases performed
          exact (keeps.refused requests stands objects rfl rfl).without_more

end Keeps

/-! ## Statistics -/

theorem statistics_flush (log : FailureLog) (session : Session) :
    (log.flush session).2.1.statistics = log.statistics := by
  unfold flush
  split
  · rfl
  · simp only
    split <;> rfl

/-- The statistics of a log, and those that were read, count what was recorded until then. -/
structure Counted (log : FailureLog) (events : List Event) : Prop where
  counts : log.statistics.Counts (events.filterMap Event.failure?)
  told : ∀ earlier statistics, earlier ++ [.told statistics] <+: events →
    statistics.Counts (earlier.filterMap Event.failure?)

namespace Counted

theorem concat (counted : log.Counted events)
    (counts : after.statistics.Counts ((events ++ [event]).filterMap Event.failure?))
    (told : ∀ statistics, event = .told statistics → statistics = log.statistics) :
    after.Counted (events ++ [event]) where
  counts
  told earlier statistics isFront := by
    rcases List.prefix_concat_iff.mp isFront with whole | within
    · obtain ⟨rfl, last⟩ := List.append_inj' whole rfl
      rw [told statistics (List.singleton_inj.mp last).symm]
      exact counted.counts
    · exact counted.told earlier statistics within

theorem perform (counted : log.Counted events)
    (performed : act.perform turn log session = (event, after, later)) :
    after.Counted (events ++ [event]) := by
  cases act with
  | append failure =>
      cases performed
      refine counted.concat ?_ nofun
      rw [List.filterMap_append]
      exact counted.counts.increment failure
  | read =>
      cases performed
      refine counted.concat ?_ fun statistics same => (Event.told.inj same).symm
      rw [List.filterMap_append]
      exact (List.append_nil _).symm ▸ counted.counts
  | flush =>
      have statistics : after.statistics = log.statistics := by
        rw [← statistics_flush log session]
        exact congrArg (·.2.1.statistics) performed.symm
      have unread : event.failure? = none ∧ ∀ statistics, event ≠ .told statistics := by
        rcases Act.event_of_flush performed with rfl | ⟨name, result, rfl⟩
        · exact ⟨rfl, nofun⟩
        · exact ⟨rfl, nofun⟩
      refine counted.concat ?_ fun other told => absurd told (unread.2 other)
      rw [List.filterMap_append, List.filterMap_cons_none unread.1, statistics]
      exact (List.append_nil _).symm ▸ counted.counts

end Counted

/-! ## Tasks -/

/-- What a task has left to record changes only when it records. -/
theorem Task.failures_eq {task : Task} (acts : task.act? = some act)
    (unkept : ∀ failure, act ≠ .append failure) (event : Event) (log : FailureLog) :
    (task.next event log).failures = task.failures := by
  obtain ⟨_ | due, calls⟩ := task
  · rcases calls with _ | ⟨failure | _ | _ | _, calls⟩
    · rfl
    · exact absurd (Option.some.inj acts).symm (unkept failure)
    · rfl
    · rfl
    · rfl
  · cases due <;> rfl

/-- The failure that is kept in a turn is the one that the task goes to record. -/
theorem Task.failures_next {task : Task} (acts : task.act? = some act)
    (performed : act.perform turn log session = (event, after, later)) :
    event.failure?.toList ++ (task.next event after).failures = task.failures := by
  cases act with
  | append failure =>
      cases performed
      obtain ⟨_ | due, calls⟩ := task
      · rcases calls with _ | ⟨failure | _ | _ | _, calls⟩ <;> cases acts
        rfl
      · cases due <;> cases acts
  | flush =>
      have none : event.failure? = none := by
        rcases Act.event_of_flush performed with rfl | ⟨name, result, rfl⟩ <;> rfl
      rw [none]
      exact failures_eq acts nofun event after
  | read =>
      cases performed
      exact failures_eq acts nofun _ _

theorem Act.failureOf?_perform (performed : act.perform turn log session = (event, after, later))
    (task : Nat) : event.failureOf? task = if turn.task = task then event.failure? else none := by
  cases act with
  | append failure =>
      cases performed
      rfl
  | read =>
      cases performed
      exact (ite_self none).symm
  | flush =>
      rcases Act.event_of_flush performed with rfl | ⟨name, result, rfl⟩ <;>
        exact (ite_self none).symm

namespace Sharing

/-- Tasks that are about to make calls to a log that was just opened. -/
def ofCalls (log : FailureLog) (session : Session) (calls : List (List Call)) : Sharing :=
  { log, session, tasks := calls.map fun calls => { calls } }

def failuresLeft (shared : Sharing) (task : Nat) : List Failure :=
  shared.tasks[task]?.elim [] Task.failures

variable {shared : Sharing}

/-- What a task has recorded, and what it has left to record, is what it set out to. -/
theorem recorded_step (shared : Sharing) (turn : Turn) (task : Nat) :
    (shared.step turn).events.filterMap (Event.failureOf? task) ++
        (shared.step turn).failuresLeft task =
      shared.events.filterMap (Event.failureOf? task) ++ shared.failuresLeft task := by
  rcases shared.step_cases turn with same |
    ⟨doer, act, event, log, session, here, acts, performed, step⟩
  · rw [same]
  · rw [step, List.filterMap_append, List.append_assoc]
    congr 1
    have owned := Act.failureOf?_perform performed task
    unfold failuresLeft
    by_cases own : turn.task = task
    · subst own
      rw [getElem?_set_turn here, here]
      simp only [Option.elim_some, ← Task.failures_next acts performed]
      rw [if_pos rfl] at owned
      rw [List.filterMap_cons, owned]
      cases event.failure? <;> rfl
    · rw [if_neg own] at owned
      rw [List.filterMap_cons_none owned, List.getElem?_set_ne own]
      rfl

theorem recorded_run (shared : Sharing) (turns : List Turn) (task : Nat) :
    (shared.run turns).events.filterMap (Event.failureOf? task) ++
        (shared.run turns).failuresLeft task =
      shared.events.filterMap (Event.failureOf? task) ++ shared.failuresLeft task := by
  induction turns generalizing shared with
  | nil => rfl
  | cons turn turns ih => exact (ih (shared.step turn)).trans (shared.recorded_step turn task)

/-! ## Turns -/

theorem counted_run (counted : shared.log.Counted shared.events) (turns : List Turn) :
    (shared.run turns).log.Counted (shared.run turns).events := by
  induction turns generalizing shared with
  | nil => exact counted
  | cons turn turns ih =>
      refine ih ?_
      rcases shared.step_cases turn with same | ⟨_, _, _, _, _, _, _, performed, step⟩
      · rwa [same]
      · rw [step]
        exact counted.perform performed

theorem keeps_step (plain : ∀ batch, Key.Plain (first.batchName batch))
    (keeps : first.Keeps start batches shared.log shared.session.store shared.events)
    (turn : Turn) :
    ∃ more, first.Keeps start (batches ++ more) (shared.step turn).log
      (shared.step turn).session.store (shared.step turn).events := by
  rcases shared.step_cases turn with same | ⟨task, _, event, _, session, _, _, performed, step⟩
  · rw [same]
    exact keeps.without_more
  · rw [step]
    simp only [task.store_notice event session]
    exact keeps.perform plain performed

/-- Whoever takes the lock, nothing that was recorded is lost. -/
theorem keeps_run (plain : ∀ batch, Key.Plain (first.batchName batch))
    (keeps : first.Keeps start batches shared.log shared.session.store shared.events)
    (turns : List Turn) :
    ∃ more, first.Keeps start (batches ++ more) (shared.run turns).log
      (shared.run turns).session.store (shared.run turns).events := by
  induction turns generalizing shared batches with
  | nil => exact keeps.without_more
  | cons turn turns ih =>
      obtain ⟨one, kept⟩ := keeps_step plain keeps turn
      obtain ⟨more, kept⟩ := ih kept
      exact ⟨one ++ more, (List.append_assoc batches one more) ▸ kept⟩

/-- A batch that could not be written is written another time, under the same name. -/
theorem step_refused (plain : ∀ batch, Key.Plain (first.batchName batch))
    (keeps : first.Keeps start batches shared.log shared.session.store shared.events)
    {turn : Turn} {name : String} {e : FailureLogError}
    (refused : (shared.step turn).events = shared.events ++ [.wrote name (.error e)]) :
    name = first.batchName batches.length ∧ (shared.step turn).log = shared.log ∧
      ∀ name, first.provider.object? (shared.step turn).session.store name =
        first.provider.object? shared.session.store name := by
  rcases shared.step_cases turn with same | ⟨task, act, event, log, session, _, _, performed, step⟩
  · rw [same] at refused
    exact absurd refused.symm (by simp)
  · rw [step] at refused
    have last : event = .wrote name (.error e) := by simpa using refused
    subst last
    rw [step]
    simp only [task.store_notice]
    cases act with
    | append failure => cases performed
    | read => cases performed
    | flush =>
        have waits : shared.log.pending ≠ [] := by
          intro none
          rw [Act.perform_flush_none none] at performed
          cases performed
        rcases flush_cases keeps.provider keeps.stem plain shared.session keeps.stands waits with
          ⟨written, flushed, -⟩ | ⟨e, refused, flushed, -, -, objects⟩
        · rw [Act.perform_flush_some waits turn flushed] at performed
          cases performed
        · rw [Act.perform_flush_some waits turn flushed, batchName_congr keeps.stem,
            keeps.number] at performed
          cases performed
          exact ⟨rfl, rfl, objects⟩

/-- Where nothing waits, nothing is written. -/
theorem step_idle {turn : Turn} {task : Task} (here : shared.tasks[turn.task]? = some task)
    (acts : task.act? = some .flush) (none : shared.log.pending = []) :
    (shared.step turn).events = shared.events ++ [.idle] ∧
      (shared.step turn).log = shared.log ∧ (shared.step turn).session = shared.session := by
  rw [step_of_act here acts (Act.perform_flush_none none _ _)]
  refine ⟨rfl, rfl, ?_⟩
  unfold Task.notice
  split
  · rename_i wrote
    cases wrote
  · rename_i told
    cases told
  · rfl

/-- After a record fewer records wait than a batch has, unless the batch could not be written. -/
theorem complete_record {turn : Turn} {failure : Failure} {calls : List Call}
    (here : shared.tasks[turn.task]? = some { calls := .record failure :: calls }) :
    (shared.complete turn).log.pending.length < batchSize ∨
      ∃ name e, (shared.complete turn).events.getLast? = some (.wrote name (.error e)) := by
  by_cases room : (shared.log.append failure turn.now).pending.length < batchSize
  · have kept : (shared.log.record failure turn.now shared.session).1 =
        shared.log.append failure turn.now := by
      unfold FailureLog.record
      simp only [if_pos room]
    left
    rw [complete_record_room here room]
    simp only [kept, room]
  · obtain ⟨result, complete, emptied⟩ := complete_record_full here room
    rw [complete]
    rcases result with e | _
    · exact .inr ⟨_, e, List.getLast?_concat⟩
    · left
      simp only [emptied rfl]
      decide

end Sharing

/-- A log that was opened has nothing to keep yet. -/
theorem keeps_of_open {now : Timestamp} {url : String} {session opened : Session}
    (isOpen : open? now url session = (.ok first, opened)) :
    first.stem = stemAt now ∧ first.Counted [] ∧
      first.Keeps opened.store [] first opened.store [] := by
  obtain ⟨provider, rfl, stands⟩ := open?_cases isOpen
  refine ⟨rfl, ⟨⟨fun _ => rfl, rfl⟩, fun earlier _ isFront => ?_⟩, ?_⟩
  · exact absurd (List.prefix_nil.mp isFront) (by simp)
  · exact {
      provider := rfl
      stem := rfl
      stands := stands
      number := rfl
      names := rfl
      puts := rfl
      objects := nofun
      others := fun _ _ _ => rfl
      records := rfl }

/-- A log that tasks share loses nothing and repeats nothing, whatever they ask of it, whoever
takes the lock when, and whichever writes fail.  The batches that were written have names of their
own, each was written once, and its object reads as its records, line by line.  With the records
that wait there is one for every failure that was recorded, in the order of recording, and it tells
of the failure and of the time.  Statistics count all of these failures.  A batch that cannot be
written changes nothing, and neither does a flush where nothing waits.  A call that no other comes
in between of does what it does by itself, and a record then leaves less than a batch waiting. -/
theorem Sharing.run_keepsEverything {now : Timestamp} {url : String} {session opened : Session}
    {first : FailureLog} (isOpen : open? now url session = (.ok first, opened))
    (calls : List (List Call)) (turns : List Turn) :
    let shared := (Sharing.ofCalls first opened calls).run turns
    ∃ batches : List (List FailureRecord),
      -- the batches
      shared.log.batches = batches.length ∧
      ((List.range batches.length).map first.batchName).Nodup ∧
      shared.events.filterMap Event.written? = (List.range batches.length).map first.batchName ∧
      shared.session.store.requests.putSuccesses =
        opened.store.requests.putSuccesses + batches.length ∧
      (∀ batch < batches.length,
        first.object? shared.session.store batch = batches[batch]?.map FailureRecord.bytes) ∧
      (∀ records ∈ batches, ∃ values, Json.parseLines? (FailureRecord.bytes records) = some values ∧
        List.Forall₂ FailureRecord.ReadsAs records values) ∧
      (∀ name, Key.Plain name → (∀ batch < batches.length, name ≠ first.batchName batch) →
        first.provider.object? shared.session.store name =
          first.provider.object? opened.store name) ∧
      -- what was recorded
      List.Forall₂ (fun record (kept : Failure × Timestamp) =>
        record.Tells kept.1 ∧ record.time = kept.2)
        (batches.flatten ++ shared.log.pending) (shared.events.filterMap Event.kept?) ∧
      (∀ task, shared.events.filterMap (Event.failureOf? task) ++ shared.failuresLeft task =
        calls[task]?.elim [] (·.filterMap Call.failure?)) ∧
      -- the statistics of the log, and those that were read
      shared.log.statistics.Counts (shared.events.filterMap Event.failure?) ∧
      (∀ earlier statistics, earlier ++ [.told statistics] <+: shared.events →
        statistics.Counts (earlier.filterMap Event.failure?)) ∧
      -- a flush that fails, and one that has nothing to write
      (∀ turn name e, (shared.step turn).events = shared.events ++ [.wrote name (.error e)] →
        name = first.batchName batches.length ∧ (shared.step turn).log = shared.log ∧
        ∀ name, first.provider.object? (shared.step turn).session.store name =
          first.provider.object? shared.session.store name) ∧
      (∀ turn task, shared.tasks[turn.task]? = some task → task.act? = some .flush →
        shared.log.pending = [] → (shared.step turn).events = shared.events ++ [.idle] ∧
          (shared.step turn).log = shared.log ∧ (shared.step turn).session = shared.session) ∧
      -- calls that are made one after the other
      ∀ turn call later, shared.tasks[turn.task]? = some { calls := call :: later } →
        let done := shared.complete turn
        (done.events.getLast?.bind Event.told?, done.log, done.session) =
          call.make turn.now shared.log shared.session ∧
        done.tasks[turn.task]? = some { calls := later } ∧
        ∀ failure, call = .record failure → done.log.pending.length < 100 ∨
          ∃ name e, done.events.getLast? = some (.wrote name (.error e)) := by
  intro shared
  obtain ⟨stem, counted, keeps⟩ := keeps_of_open isOpen
  have plain := plain_batchName stem
  let begun := ofCalls first opened calls
  have fresh : first.Keeps opened.store [] begun.log begun.session.store begun.events := keeps
  have uncounted : begun.log.Counted begun.events := counted
  obtain ⟨batches, keeps⟩ := keeps_run plain fresh turns
  have counted := counted_run uncounted turns
  refine ⟨batches, keeps.number, ?_, keeps.names, keeps.puts, keeps.objects, ?_, keeps.others,
    ?_, ?_, counted.counts, counted.told, fun _ _ _ => step_refused plain keeps,
    fun _ _ => step_idle, ?_⟩
  · exact List.Nodup.map (fun _ _ same => batchName_inj.mp same) List.nodup_range
  · intro records _
    refine ⟨records.map FailureRecord.toJson, FailureRecord.parseLines?_bytes records, ?_⟩
    rw [List.forall₂_map_right_iff, List.forall₂_same]
    exact fun record _ => record.readsAs_toJson
  · have records : batches.flatten ++ shared.log.pending = _ := keeps.records
    rw [records, List.forall₂_map_left_iff, List.forall₂_same]
    exact fun kept _ => ⟨FailureRecord.tells_ofFailure .., rfl⟩
  · intro task
    rw [(ofCalls first opened calls).recorded_run turns task]
    simp only [failuresLeft, ofCalls, List.getElem?_map]
    cases calls[task]? <;> rfl
  · intro turn call later here done
    obtain ⟨made, left⟩ := complete_eq_make here
    refine ⟨made, left, ?_⟩
    rintro failure rfl
    exact complete_record here

/-- A batch that is refused is written with the record of another task, and both are in it. -/
theorem Sharing.run_keepsEverything_refused :
    let torn : Failure := {
      chunk := ⟨"memory://torn.csv", 0, ⟨2, 5⟩⟩, kind := .unterminatedQuote, message := "torn"
      line := 2 }
    let gone : Failure := {
      chunk := ⟨"memory://gone.csv", 1, ⟨5, 9⟩⟩, kind := .io, message := "gone", line := 3 }
    ∃ (first : FailureLog) (opened : Session) (one two : FailureRecord) (value other : Json.Value),
      open? {} "memory://log" { store := { refusals := [true] } } = (.ok first, opened) ∧
      let shared := (Sharing.ofCalls first opened
        [[.record torn, .flush, .stats], [.record gone, .finalize]]).run
        ([0, 0, 1, 0, 1, 1].map fun task => { task })
      shared.session.store.requests.putErrors = 1 ∧ shared.log.batches = 1 ∧
      shared.log.pending = [] ∧
      (first.object? shared.session.store 0).map Json.parseLines? = some (some [value, other]) ∧
      one.ReadsAs value ∧ one.Tells torn ∧ two.ReadsAs other ∧ two.Tells gone := by
  intro torn gone
  let first : FailureLog := {
    provider := { location := .memory (some ⟨["log"]⟩) }, stem := stemAt {} }
  let session : Session := { store := { refusals := [true] } }
  have isOpen : open? {} "memory://log" session =
      (.ok first, (open? {} "memory://log" session).2) := by
    refine Prod.ext ?_ rfl
    decide +kernel
  have kept := Sharing.run_keepsEverything isOpen
    [[.record torn, .flush, .stats], [.record gone, .finalize]]
    ([0, 0, 1, 0, 1, 1].map fun task => { task })
  have ended :
      let shared := (Sharing.ofCalls first (open? {} "memory://log" session).2
        [[.record torn, .flush, .stats], [.record gone, .finalize]]).run
        ([0, 0, 1, 0, 1, 1].map fun task => { task })
      shared.session.store.requests.putErrors = 1 ∧ shared.log.batches = 1 ∧
        shared.log.pending = [] ∧
        shared.events.filterMap Event.kept? = [(torn, {}), (gone, {})] := by
    decide +kernel
  refine ⟨first, (open? {} "memory://log" session).2, ?_⟩
  generalize (Sharing.ofCalls first _ _).run _ = shared at kept ended ⊢
  obtain ⟨batches, number, -, -, -, objects, read, -, records, -⟩ := kept
  obtain ⟨refused, once, emptied, both⟩ := ended
  obtain ⟨batch, rfl⟩ := List.length_eq_one_iff.mp (number.symm.trans once)
  rw [List.flatten_singleton, emptied, List.append_nil, both] at records
  -- Two failures were recorded, so there are two records, and two values.
  obtain ⟨one, _, former, rest, rfl⟩ := List.forall₂_cons_right_iff.mp records
  obtain ⟨two, _, latter, none, rfl⟩ := List.forall₂_cons_right_iff.mp rest
  cases none
  obtain ⟨values, parsed, reads⟩ := read [one, two] (List.mem_singleton_self _)
  obtain ⟨value, _, readsOne, rest, rfl⟩ := List.forall₂_cons_left_iff.mp reads
  obtain ⟨other, _, readsTwo, none, rfl⟩ := List.forall₂_cons_left_iff.mp rest
  cases none
  refine ⟨one, two, value, other, isOpen, refused, once, emptied, ?_, readsOne, former.1,
    readsTwo, latter.1⟩
  rw [objects 0 Nat.one_pos]
  exact congrArg some parsed

end FailureLog

end CsvImport
