import CsvImport.Proofs.Batches

/-!
# A log that tasks share

The tasks of a program record failures in one log.  A lock keeps them apart, but a call may take it
twice: a full batch is written, and statistics are read, after the lock was let go, so that calls
of other tasks can come in between.  What happens under one lock is a step.
-/

namespace CsvImport

namespace FailureLog

inductive Call where
  | record (failure : Failure)
  | flush
  | finalize
  | stats
deriving DecidableEq, Repr

namespace Call

def failure? : Call → Option Failure
  | record failure => some failure
  | _ => none

/-- Make a call that no other comes in between of: the statistics it answers with, and what
becomes of the log. -/
def make (now : Timestamp) (log : FailureLog) (session : Session) :
    Call → Option FailureStatistics × FailureLog × Session
  | record failure => (none, log.record failure now session)
  | flush => (none, (log.flush session).2)
  | finalize => ((log.finalize session).1.toOption, (log.finalize session).2)
  | stats => (some log.statistics, log, session)

end Call

/-- Who takes the lock next, and when. -/
structure Turn where
  task : Nat
  now : Timestamp := {}
deriving DecidableEq, Repr

/-- What happened while the lock was held. -/
inductive Event where
  /-- A failure was counted, and its record kept. -/
  | kept (turn : Turn) (failure : Failure)
  /-- There was nothing to write. -/
  | idle
  /-- The pending records were written under a name, or could not be. -/
  | wrote (name : String) (result : Except FailureLogError Unit)
  /-- The statistics were read. -/
  | told (statistics : FailureStatistics)
deriving DecidableEq, Repr

namespace Event

def failure? : Event → Option Failure
  | kept _ failure => some failure
  | _ => none

def failureOf? (task : Nat) : Event → Option Failure
  | kept turn failure => if turn.task = task then some failure else none
  | _ => none

def kept? : Event → Option (Failure × Timestamp)
  | kept turn failure => some (failure, turn.now)
  | _ => none

def written? : Event → Option String
  | wrote name (.ok ()) => some name
  | _ => none

def told? : Event → Option FailureStatistics
  | told statistics => some statistics
  | _ => none

def error? : Event → Option FailureLogError
  | wrote _ (.error e) => some e
  | _ => none

end Event

/-- What is done while the lock is held. -/
inductive Act where
  | append (failure : Failure)
  | flush
  | read
deriving DecidableEq, Repr

def Act.perform (turn : Turn) (log : FailureLog) (session : Session) :
    Act → Event × FailureLog × Session
  | append failure =>
      (.kept turn failure, log.append failure turn.now, session.tell .failureLog .debug
        ("Recording DLQ failure: " ++ failure.chunk.text ++ " (" ++ failure.kind.code ++ ")"))
  | flush =>
      let (result, after, later) := log.flush session
      (if log.pending.isEmpty then .idle else .wrote (log.batchName log.batches) result,
        after, later)
  | read => (.told log.statistics, log, session)

/-- A log that was flushed keeps no record back. -/
theorem pending_of_flush {log after : FailureLog} {session later : Session}
    (flushed : log.flush session = (.ok (), after, later)) : after.pending = [] := by
  unfold flush at flushed
  split at flushed
  · rename_i none
    cases flushed
    exact List.isEmpty_iff.mp none
  · simp only at flushed
    split at flushed
    · cases flushed
    · cases flushed
      rfl

/-- There is nothing to write where no record waits. -/
theorem Act.perform_flush_none {log : FailureLog} (none : log.pending = []) (turn : Turn)
    (session : Session) : Act.flush.perform turn log session = (.idle, log, session) := by
  unfold perform
  rw [flush_of_no_pending none, none]
  rfl

theorem Act.perform_flush_some {log after : FailureLog} {session later : Session}
    {result : Except FailureLogError Unit} (some : log.pending ≠ []) (turn : Turn)
    (flushed : log.flush session = (result, after, later)) :
    Act.flush.perform turn log session =
      (.wrote (log.batchName log.batches) result, after, later) := by
  unfold perform
  rw [flushed]
  simp only [List.isEmpty_eq_false_iff.mpr some, Bool.false_eq_true, ↓reduceIte]

theorem Act.event_of_flush {turn : Turn} {log after : FailureLog} {session later : Session}
    {event : Event} (performed : Act.flush.perform turn log session = (event, after, later)) :
    event = .idle ∨ ∃ name result, event = .wrote name result := by
  cases performed
  split
  · exact .inl rfl
  · exact .inr ⟨_, _, rfl⟩

/-- What is left of a call that has let the lock go. -/
inductive Due where
  /-- A full batch is written. -/
  | overflow
  /-- The statistics are read after everything was written. -/
  | summary
deriving DecidableEq, Repr

/-- A task: what is left of its call, and the calls it will make. -/
structure Task where
  due : Option Due := none
  calls : List Call
deriving DecidableEq, Repr

namespace Task

def failures (task : Task) : List Failure :=
  task.calls.filterMap Call.failure?

/-- What the task does when it takes the lock, if it has anything to do. -/
def act? (task : Task) : Option Act :=
  match task.due, task.calls with
  | some .overflow, _ => some .flush
  | some .summary, _ => some .read
  | none, [] => none
  | none, .record failure :: _ => some (.append failure)
  | none, .flush :: _ => some .flush
  | none, .finalize :: _ => some .flush
  | none, .stats :: _ => some .read

/-- What is left to do after that, from what happened and the log as the task let it go. -/
def next (task : Task) (event : Event) (log : FailureLog) : Task :=
  match task.due, task.calls with
  | some _, calls => { calls }
  | none, [] => task
  | none, .record _ :: calls =>
      { due := if log.pending.length < batchSize then none else some .overflow, calls }
  | none, .flush :: calls => { calls }
  | none, .finalize :: calls =>
      { due := if event.error?.isSome then none else some .summary, calls }
  | none, .stats :: calls => { calls }

def notice (task : Task) (event : Event) (session : Session) : Session :=
  match task.due, event with
  | some .overflow, .wrote _ (.error e) =>
      session.tell .failureLog .error ("Failed to flush DLQ: " ++ e.notice)
  | some .summary, .told statistics =>
      if statistics.total = 0 then session
      else session.tell .failureLog .info ("DLQ finalized: " ++ toString statistics.total ++
        " total failures (" ++ statistics.text ++ ")")
  | _, _ => session

theorem store_notice (task : Task) (event : Event) (session : Session) :
    (task.notice event session).store = session.store := by
  unfold notice
  split
  · rfl
  · split <;> rfl
  · rfl

end Task

/-- A log, the tasks that share it, and what has happened to it. -/
structure Sharing where
  log : FailureLog
  session : Session
  tasks : List Task
  /-- Every event, first event first. -/
  events : List Event := []
deriving DecidableEq, Repr

namespace Sharing

def step (shared : Sharing) (turn : Turn) : Sharing :=
  match shared.tasks[turn.task]? with
  | none => shared
  | some task =>
      match task.act? with
      | none => shared
      | some act =>
          let (event, log, session) := act.perform turn shared.log shared.session
          { log, session := task.notice event session
            tasks := shared.tasks.set turn.task (task.next event log)
            events := shared.events ++ [event] }

def run (shared : Sharing) (turns : List Turn) : Sharing :=
  turns.foldl step shared

/-- Let a task make its next call, and no other task come in between. -/
def complete (shared : Sharing) (turn : Turn) : Sharing :=
  let next := shared.step turn
  if next.tasks[turn.task]?.any (·.due.isSome) then next.step turn else next

variable {shared : Sharing} {turn : Turn} {task : Task}

theorem step_of_act {act : Act} (here : shared.tasks[turn.task]? = some task)
    (acts : task.act? = some act) {event : Event} {log : FailureLog} {session : Session}
    (performed : act.perform turn shared.log shared.session = (event, log, session)) :
    shared.step turn = {
      log, session := task.notice event session
      tasks := shared.tasks.set turn.task (task.next event log)
      events := shared.events ++ [event] } := by
  unfold step
  simp only [here, acts, performed]

/-- A turn does what the task has to do, or there is nothing that it has to do. -/
theorem step_cases (shared : Sharing) (turn : Turn) :
    shared.step turn = shared ∨ ∃ task act event log session,
      shared.tasks[turn.task]? = some task ∧ task.act? = some act ∧
      act.perform turn shared.log shared.session = (event, log, session) ∧
      shared.step turn = {
        log, session := task.notice event session
        tasks := shared.tasks.set turn.task (task.next event log)
        events := shared.events ++ [event] } := by
  cases here : shared.tasks[turn.task]? with
  | none =>
      left
      unfold step
      simp only [here]
  | some task =>
      cases acts : task.act? with
      | none =>
          left
          unfold step
          simp only [here, acts]
      | some act =>
          exact .inr ⟨task, act, _, _, _, rfl, acts, rfl, step_of_act here acts rfl⟩

/-- The task that had its turn is the only one that has changed. -/
theorem getElem?_set_turn (here : shared.tasks[turn.task]? = some task) (next : Task) :
    (shared.tasks.set turn.task next)[turn.task]? = some next :=
  List.getElem?_set_self (List.getElem?_eq_some_iff.mp here).1

theorem complete_of_step {next : Sharing} {rest : Task} (stepped : shared.step turn = next)
    (there : next.tasks[turn.task]? = some rest) :
    shared.complete turn = if rest.due.isSome then next.step turn else next := by
  unfold complete
  simp only [stepped, there, Option.any_some]

/-- A call that takes the lock once. -/
theorem complete_once {act : Act} {calls : List Call} {event : Event} {log : FailureLog}
    {session : Session} (here : shared.tasks[turn.task]? = some task)
    (acts : task.act? = some act)
    (performed : act.perform turn shared.log shared.session = (event, log, session))
    (ends : task.next event log = { calls }) :
    shared.complete turn = {
      log, session := task.notice event session
      tasks := shared.tasks.set turn.task { calls }
      events := shared.events ++ [event] } := by
  have stepped := step_of_act here acts performed
  rw [ends] at stepped
  exact complete_of_step stepped (getElem?_set_turn here _)

/-- A call that takes the lock twice. -/
theorem complete_twice {act act' : Act} {due : Due} {calls : List Call} {event event' : Event}
    {log log' : FailureLog} {session session' : Session}
    (here : shared.tasks[turn.task]? = some task) (acts : task.act? = some act)
    (performed : act.perform turn shared.log shared.session = (event, log, session))
    (goesOn : task.next event log = { due, calls })
    (acts' : Task.act? { due, calls } = some act')
    (performed' : act'.perform turn log (task.notice event session) = (event', log', session')) :
    shared.complete turn = {
      log := log', session := Task.notice { due, calls } event' session'
      tasks := shared.tasks.set turn.task { calls }
      events := shared.events ++ [event] ++ [event'] } := by
  have stepped := step_of_act here acts performed
  rw [goesOn] at stepped
  have there := getElem?_set_turn here { due := some due, calls }
  rw [complete_of_step stepped there]
  simp only [Option.isSome_some, ↓reduceIte]
  rw [step_of_act there acts' performed']
  simp only [List.set_set]
  cases due <;> rfl

/-- A record that fills no batch takes the lock once. -/
theorem complete_record_room {failure : Failure} {calls : List Call}
    (here : shared.tasks[turn.task]? = some { calls := .record failure :: calls })
    (room : (shared.log.append failure turn.now).pending.length < batchSize) :
    shared.complete turn = {
      log := (shared.log.record failure turn.now shared.session).1
      session := (shared.log.record failure turn.now shared.session).2
      tasks := shared.tasks.set turn.task { calls }
      events := shared.events ++ [.kept turn failure] } := by
  have ends : Task.next { calls := .record failure :: calls } (.kept turn failure)
      (shared.log.append failure turn.now) = { calls } := by
    unfold Task.next
    simp only [if_pos room]
  rw [complete_once here rfl rfl ends]
  unfold FailureLog.record
  simp only [if_pos room]
  rfl

/-- A record that fills a batch takes the lock again to write it. -/
theorem complete_record_full {failure : Failure} {calls : List Call}
    (here : shared.tasks[turn.task]? = some { calls := .record failure :: calls })
    (full : ¬ (shared.log.append failure turn.now).pending.length < batchSize) :
    ∃ result, shared.complete turn = {
      log := (shared.log.record failure turn.now shared.session).1
      session := (shared.log.record failure turn.now shared.session).2
      tasks := shared.tasks.set turn.task { calls }
      events := shared.events ++ [.kept turn failure] ++
        [.wrote (shared.log.batchName shared.log.batches) result] } ∧
      (result = .ok () → (shared.log.record failure turn.now shared.session).1.pending = []) := by
  have goesOn : Task.next { calls := .record failure :: calls } (.kept turn failure)
      (shared.log.append failure turn.now) = { due := some .overflow, calls } := by
    unfold Task.next
    simp only [if_neg full]
  have some : (shared.log.append failure turn.now).pending ≠ [] :=
    List.append_ne_nil_of_right_ne_nil _ (List.cons_ne_nil _ _)
  rcases flushed : (shared.log.append failure turn.now).flush (shared.session.tell .failureLog
    .debug ("Recording DLQ failure: " ++ failure.chunk.text ++ " (" ++ failure.kind.code ++ ")"))
    with ⟨result, after, later⟩
  have performed := Act.perform_flush_some some turn flushed
  refine ⟨result, ?_⟩
  rw [complete_twice here rfl rfl goesOn rfl performed]
  unfold FailureLog.record
  simp only [if_neg full, flushed]
  rcases result with e | _
  · exact ⟨rfl, nofun⟩
  · exact ⟨rfl, fun _ => pending_of_flush flushed⟩

/-- A call that is made in one piece does to the log what the call does by itself. -/
theorem complete_eq_make {call : Call} {calls : List Call}
    (here : shared.tasks[turn.task]? = some { calls := call :: calls }) :
    let done := shared.complete turn
    (done.events.getLast?.bind Event.told?, done.log, done.session) =
      call.make turn.now shared.log shared.session ∧
    done.tasks[turn.task]? = some { calls } := by
  intro done
  cases call with
  | record failure =>
      by_cases room : (shared.log.append failure turn.now).pending.length < batchSize
      · have whole := complete_record_room here room
        rw [show done = _ from whole]
        exact ⟨by rw [List.getLast?_concat]; rfl, getElem?_set_turn here _⟩
      · obtain ⟨result, whole, -⟩ := complete_record_full here room
        rw [show done = _ from whole]
        exact ⟨by rw [List.getLast?_concat]; rfl, getElem?_set_turn here _⟩
  | flush =>
      by_cases none : shared.log.pending = []
      · have whole := complete_once here rfl (Act.perform_flush_none none _ _) rfl
        rw [show done = _ from whole, Call.make, flush_of_no_pending none]
        exact ⟨by rw [List.getLast?_concat]; rfl, getElem?_set_turn here _⟩
      · rcases flushed : shared.log.flush shared.session with ⟨result, after, later⟩
        have whole := complete_once here rfl (Act.perform_flush_some none turn flushed) rfl
        rw [show done = _ from whole, Call.make, flushed]
        exact ⟨by rw [List.getLast?_concat]; rfl, getElem?_set_turn here _⟩
  | finalize =>
      by_cases none : shared.log.pending = []
      · have whole := complete_twice here rfl (Act.perform_flush_none none _ _) rfl rfl rfl
        rw [show done = _ from whole, Call.make, FailureLog.finalize, flush_of_no_pending none]
        exact ⟨by rw [List.getLast?_concat]; rfl, getElem?_set_turn here _⟩
      · rcases flushed : shared.log.flush shared.session with ⟨e | _, after, later⟩
        · have whole := complete_once here rfl (Act.perform_flush_some none turn flushed) rfl
          rw [show done = _ from whole, Call.make, FailureLog.finalize, flushed]
          exact ⟨by rw [List.getLast?_concat]; rfl, getElem?_set_turn here _⟩
        · have performed := Act.perform_flush_some none turn flushed
          have whole := complete_twice here rfl performed rfl rfl rfl
          rw [show done = _ from whole, Call.make, FailureLog.finalize, flushed]
          exact ⟨by rw [List.getLast?_concat]; rfl, getElem?_set_turn here _⟩
  | stats =>
      rw [show done = _ from complete_once here rfl rfl rfl]
      exact ⟨by rw [List.getLast?_concat]; rfl, getElem?_set_turn here _⟩

end Sharing

end FailureLog

end CsvImport
