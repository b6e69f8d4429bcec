import CsvImport.Bytes

/-!
# Sinks

A sink takes bytes.  It may have limited room, take less than it is offered, break off,
refuse, or fail to flush.  What it does with its first writes can be laid down one by one.
-/

namespace CsvImport

inductive WhenFull where
  /-- It fails. -/
  | refuse
  /-- It takes no byte of them. -/
  | takeNothing
deriving DecidableEq, Repr, Inhabited

inductive SinkAnswer where
  | fail (cause : String)
  /-- It breaks off before it takes anything, and may be asked again. -/
  | interrupt (cause : String)
  /-- It takes at most so many bytes. -/
  | take (most : Nat)
deriving DecidableEq, Repr, Inhabited

structure SinkError where
  cause : String
  /-- Whether it was only broken off. -/
  interrupted : Bool := false
deriving DecidableEq, Repr, Inhabited

/-- How bytes are written as a whole. -/
structure WriteRule where
  /-- What a write that takes nothing is reported as. -/
  nothingTaken : String
  /-- Whether a write that was broken off is made again. -/
  persists : Bool
deriving DecidableEq, Repr, Inhabited

/-- A destination of bytes and what it has taken so far. -/
structure Sink where
  /-- What becomes of the writes to come, first write first; later ones find what room there is. -/
  answers : List SinkAnswer := []
  /-- How many bytes it still has room for; `none` for any number. -/
  room : Option Nat := none
  whenFull : WhenFull := .refuse
  /-- Whether a write that does not fit whole is treated as one to a full sink. -/
  atomic : Bool := false
  /-- The most bytes that one write takes. -/
  maxWrite : Option Nat := none
  flushFails : Bool := false
  /-- The pieces taken, last piece first. -/
  taken : List Bytes := []
  /-- How many writes were taken. -/
  writes : Nat := 0
  /-- How often it was flushed. -/
  flushes : Nat := 0
deriving DecidableEq, Repr, Inhabited

namespace Sink

def contents (sink : Sink) : Bytes :=
  sink.taken.reverse.flatten

/-- Whether a write of `size` bytes meets a full sink. -/
def isFullFor (sink : Sink) (size : Nat) : Bool :=
  match sink.room with
  | none => false
  | some room => if sink.atomic then room < size else room == 0

/-- How many bytes one write of `size` bytes takes. -/
def share (sink : Sink) (size : Nat) : Nat :=
  min (min size (sink.room.getD size)) (sink.maxWrite.getD size)

def accept (sink : Sink) (data : Bytes) (size : Nat) : Except SinkError Nat × Sink :=
  (.ok size, { sink with
    room := sink.room.map (· - size)
    taken := data.take size :: sink.taken
    writes := sink.writes + 1 })

/-- Offer bytes in one write; the answer is how many were taken. -/
def write (sink : Sink) (data : Bytes) : Except SinkError Nat × Sink :=
  match sink.answers with
  | .fail cause :: answers => (.error { cause }, { sink with answers })
  | .interrupt cause :: answers => (.error { cause, interrupted := true }, { sink with answers })
  | .take most :: answers => { sink with answers }.accept data (min most data.length)
  | [] =>
      if sink.isFullFor data.length then
        match sink.whenFull with
        | .refuse => (.error { cause := "sink is full" }, sink)
        | .takeNothing => (.ok 0, sink)
      else sink.accept data (sink.share data.length)

/-- A sink that breaks off a write was told to do so. -/
theorem length_answers_of_interrupted {sink after : Sink} {data : Bytes} {e : SinkError}
    (failed : sink.write data = (.error e, after)) (interrupted : e.interrupted = true) :
    after.answers.length < sink.answers.length := by
  unfold write at failed
  split at failed
  · cases failed
    cases interrupted
  · rename_i answers answered
    cases failed
    rw [answered]
    exact Nat.lt_succ_self _
  · cases failed
  · split at failed
    · split at failed
      · cases failed
        cases interrupted
      · cases failed
    · cases failed

theorem length_answers_write (sink : Sink) (data : Bytes) :
    (sink.write data).2.answers.length ≤ sink.answers.length := by
  unfold write
  split
  · simp_all
  · simp_all
  · simp_all [accept]
  · split
    · split <;> exact Nat.le_refl _
    · exact Nat.le_refl _

/-- Offer bytes until all are taken.  It ends, since a sink is only told so often to break off. -/
def writeAll (rule : WriteRule) (sink : Sink) (data : Bytes) : Except String Unit × Sink :=
  if data.isEmpty then (.ok (), sink)
  else
    match _ : sink.write data with
    | (.error e, after) =>
        if _ : rule.persists = true ∧ e.interrupted = true then after.writeAll rule data
        else (.error e.cause, after)
    | (.ok 0, after) => (.error rule.nothingTaken, after)
    | (.ok (size + 1), after) => after.writeAll rule (data.drop (size + 1))
termination_by data.length + sink.answers.length
decreasing_by
  · rename_i failed again
    exact Nat.add_lt_add_left (length_answers_of_interrupted failed again.2) _
  · rename_i nonempty taken
    have positive : 0 < data.length := List.length_pos_iff.mpr (by simpa using nonempty)
    have left := sink.length_answers_write data
    rw [taken] at left
    simp only [List.length_drop] at left ⊢
    omega

/-- A write adds what it has taken. -/
theorem contents_accept (sink : Sink) (data : Bytes) (size : Nat) :
    (sink.accept data size).2.contents = sink.contents ++ data.take size := by
  simp [accept, contents]

theorem contents_write {sink after : Sink} {data : Bytes} {size : Nat}
    (written : sink.write data = (.ok size, after)) :
    after.contents = sink.contents ++ data.take size := by
  unfold write at written
  split at written
  · cases written
  · cases written
  · cases written
    exact contents_accept ..
  · split at written
    · split at written
      · cases written
      · cases written
        exact (List.append_nil _).symm
    · cases written
      exact contents_accept ..

/-- A write that fails takes nothing. -/
theorem contents_write_error {sink after : Sink} {data : Bytes} {e : SinkError}
    (failed : sink.write data = (.error e, after)) : after.contents = sink.contents := by
  unfold write at failed
  split at failed
  · cases failed
    rfl
  · cases failed
    rfl
  · cases failed
  · split at failed
    · split at failed
      · cases failed
        rfl
      · cases failed
    · cases failed

/-- Writing a whole byte string adds it. -/
theorem contents_writeAll {rule : WriteRule} {sink after : Sink} {data : Bytes}
    (written : sink.writeAll rule data = (.ok (), after)) :
    after.contents = sink.contents ++ data := by
  fun_induction writeAll rule sink data with
  | case1 sink data empty =>
      cases written
      simp_all
  | case2 sink data nonempty e next failed again ih => rw [ih written, contents_write_error failed]
  | case3 => cases written
  | case4 => cases written
  | case5 sink data nonempty size next taken ih =>
      rw [ih written, contents_write taken, List.append_assoc, List.take_append_drop]

def flush (sink : Sink) : Except String Unit × Sink :=
  (if sink.flushFails then .error "flush failed" else .ok (),
    { sink with flushes := sink.flushes + 1 })

end Sink

end CsvImport
