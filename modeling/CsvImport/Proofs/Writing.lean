import CsvImport.Output

/-!
# Writing

What a sink or a file holds after bytes were written to it.  A write that fails leaves
a part of its bytes behind, never all of them.
-/

namespace CsvImport

namespace Sink

structure Accepting (sink : Sink) : Prop where
  answers : ∀ answer ∈ sink.answers, ∃ most, answer = .take (most + 1)
  room : sink.room = none
  share : sink.maxWrite ≠ some 0
  flushes : sink.flushFails = false

theorem accepting_default : Sink.Accepting {} where
  answers := fun _ member => by cases member
  room := rfl
  share := by decide
  flushes := rfl

theorem flushes_write (sink : Sink) (data : Bytes) :
    (sink.write data).2.flushes = sink.flushes := by
  unfold write
  split
  · rfl
  · rfl
  · rfl
  · split
    · split <;> rfl
    · rfl

theorem flushes_writeAll (rule : WriteRule) (sink : Sink) (data : Bytes) :
    (sink.writeAll rule data).2.flushes = sink.flushes := by
  fun_induction writeAll rule sink data with
  | case1 => rfl
  | case2 sink data _ e after failed _ ih => rw [ih, ← flushes_write sink data, failed]
  | case3 sink data _ e after failed => rw [← flushes_write sink data, failed]
  | case4 sink data _ after stuck => rw [← flushes_write sink data, stuck]
  | case5 sink data _ size after taken ih => rw [ih, ← flushes_write sink data, taken]

theorem contents_writeAll_error {rule : WriteRule} {cause : String} {sink after : Sink}
    {data : Bytes} (failed : sink.writeAll rule data = (.error cause, after)) :
    ∃ tail, tail <+: data ∧ tail ≠ data ∧ after.contents = sink.contents ++ tail := by
  fun_induction writeAll rule sink data with
  | case1 => cases failed
  | case2 sink data nonempty e next broken _ ih =>
      obtain ⟨tail, part, short, held⟩ := ih failed
      exact ⟨tail, part, short, held.trans (congrArg (· ++ tail) (contents_write_error broken))⟩
  | case3 sink data nonempty e after refused =>
      cases failed
      refine ⟨[], List.nil_prefix, fun same => nonempty (by simp [← same]), ?_⟩
      rw [contents_write_error refused, List.append_nil]
  | case4 sink data nonempty after stuck =>
      cases failed
      refine ⟨[], List.nil_prefix, fun same => nonempty (by simp [← same]), ?_⟩
      rw [contents_write stuck, List.take_zero]
  | case5 sink data nonempty size next taken ih =>
      obtain ⟨tail, part, short, held⟩ := ih failed
      refine ⟨data.take (size + 1) ++ tail, ?_, ?_, ?_⟩
      · have whole := List.take_append_drop (size + 1) data
        rw [← List.prefix_append_right_inj (data.take (size + 1)), whole] at part
        exact part
      · intro same
        refine short (List.append_cancel_left (same.trans ?_))
        exact (List.take_append_drop _ _).symm
      · rw [held, contents_write taken, List.append_assoc]

theorem Accepting.accept {sink : Sink} (accepting : sink.Accepting) (data : Bytes) (size : Nat) :
    (sink.accept data size).2.Accepting :=
  { accepting with room := by simp [Sink.accept, accepting.room] }

theorem Accepting.write {sink : Sink} (accepting : sink.Accepting) {data : Bytes}
    (nonempty : ¬data.isEmpty) :
    ∃ size after, sink.write data = (.ok (size + 1), after) ∧ after.Accepting := by
  have long : 0 < data.length := List.length_pos_iff.mpr (by simpa using nonempty)
  cases answered : sink.answers with
  | cons answer later =>
      obtain ⟨most, rfl⟩ := accepting.answers answer (by simp [answered])
      obtain ⟨size, shared⟩ := Nat.exists_eq_add_one_of_ne_zero
        (Nat.ne_of_gt (Nat.lt_min.mpr ⟨Nat.succ_pos most, long⟩))
      have rest : Accepting { sink with answers := later } := { accepting with
        answers := fun other member => accepting.answers other (by simp [answered, member]) }
      unfold Sink.write
      rw [answered]
      simp only [shared]
      exact ⟨size, _, rfl, rest.accept ..⟩
  | nil =>
      have roomy : sink.isFullFor data.length = false := by
        unfold isFullFor
        rw [accepting.room]
      have positive : 0 < sink.share data.length := by
        have most := accepting.share
        unfold Sink.share
        rw [accepting.room, Option.getD_none, Nat.min_self]
        cases limit : sink.maxWrite with
        | none => simpa using long
        | some bound =>
            have some : 0 < bound := Nat.pos_of_ne_zero fun zero => most (by rw [limit, zero])
            exact Nat.lt_min.mpr ⟨long, some⟩
      obtain ⟨size, shared⟩ := Nat.exists_eq_add_one_of_ne_zero (Nat.ne_of_gt positive)
      unfold Sink.write
      rw [answered]
      simp only [roomy, shared, Bool.false_eq_true, ↓reduceIte]
      exact ⟨size, _, rfl, accepting.accept ..⟩

theorem Accepting.writeAll {sink : Sink} (accepting : sink.Accepting) (rule : WriteRule)
    (data : Bytes) :
    ∃ after, sink.writeAll rule data = (.ok (), after) ∧ after.Accepting := by
  fun_induction Sink.writeAll rule sink data with
  | case1 sink data empty => exact ⟨sink, rfl, accepting⟩
  | case2 sink data nonempty e after broken _ ih =>
      obtain ⟨size, next, taken, _⟩ := accepting.write nonempty
      cases broken.symm.trans taken
  | case3 sink data nonempty e after refused =>
      obtain ⟨size, next, taken, _⟩ := accepting.write nonempty
      cases refused.symm.trans taken
  | case4 sink data nonempty after stuck =>
      obtain ⟨size, next, taken, _⟩ := accepting.write nonempty
      cases stuck.symm.trans taken
  | case5 sink data nonempty size after taken ih =>
      obtain ⟨other, next, same, still⟩ := accepting.write nonempty
      cases taken.symm.trans same
      exact ih still

end Sink

namespace Output

/-- The output holds the bytes, those included that are not on disk yet. -/
inductive Holds : Output → Session → Bytes → Prop where
  | sink {s : Sink} {session : Session} : Holds (.sink s) session s.contents
  | file {path : DiskPath} {buffered held : Bytes} {session : Session}
      (found : session.store.disk.get? path = some (.file held)) :
      Holds (.file path buffered) session (held ++ buffered)

/-- What an output holds depends on nothing but the disk. -/
theorem Holds.elsewhere {output : Output} {session other : Session} {held : Bytes}
    (holding : output.Holds session held) (same : other.store.disk = session.store.disk) :
    output.Holds other held := by
  cases holding with
  | sink => exact .sink
  | file found => exact .file (same ▸ found)

def isSink : Output → Bool
  | sink _ => true
  | file .. => false

theorem Holds.contents_eq {s : Sink} {session : Session} {held : Bytes}
    (holding : Holds (.sink s) session held) : s.contents = held := by
  cases holding
  rfl

/-- What a sink holds does not depend on the session. -/
theorem Holds.anywhere {output : Output} {session other : Session} {held : Bytes}
    (holding : output.Holds session held) (isSink : output.isSink) : output.Holds other held := by
  cases holding with
  | sink => exact .sink
  | file => cases isSink

/-- How often the output was flushed, as far as it counts that. -/
def flushes : Output → Nat
  | sink s => s.flushes
  | file .. => 0

def Accepting : Output → Prop
  | sink s => s.Accepting
  | file .. => True

/-- Bytes that were added at the end of a file are found there. -/
theorem get?_append {disk : Disk} {path : DiskPath} {held : Bytes}
    (found : disk.get? path = some (.file held)) (bytes : Bytes) :
    (append disk path bytes).get? path = some (.file (held ++ bytes)) := by
  have named : path ≠ [] := by
    rintro rfl
    cases found
  unfold append
  rw [found, Disk.get?_set, if_neg named, beq_self_eq_true]
  rfl

/-- Pieces are added at the end of a file, one after the other. -/
def spill (session : Session) (path : DiskPath) (pieces : List Bytes) : Session :=
  pieces.foldl (fun session piece => appendIn session path piece) session

theorem get?_spill {session : Session} {path : DiskPath} {held : Bytes}
    (found : session.store.disk.get? path = some (.file held)) (pieces : List Bytes) :
    (spill session path pieces).store.disk.get? path =
      some (.file (held ++ pieces.flatten)) := by
  induction pieces generalizing session held with
  | nil => rwa [List.flatten_nil, List.append_nil]
  | cons piece more ih =>
      have grown : (appendIn session path piece).store.disk.get? path =
          some (.file (held ++ piece)) := get?_append found piece
      rw [List.flatten_cons, ← List.append_assoc]
      exact ih grown

theorem spill_disk (session : Session) (path : DiskPath) (pieces : List Bytes) :
    ∃ disk, spill session path pieces =
      { session with store := { session.store with disk } } := by
  induction pieces generalizing session with
  | nil => exact ⟨session.store.disk, rfl⟩
  | cons piece more ih => exact ih (appendIn session path piece)

/-- Writing to a file never fails.  What was waiting and what is written goes to the file in
pieces, except for bytes at the end that are kept. -/
theorem writeAll_file (path : DiskPath) (buffered bytes : Bytes) :
    ∃ pieces kept, pieces.flatten ++ kept = buffered ++ bytes ∧
      ∀ session, (file path buffered).writeAll session bytes =
        (.ok (), file path kept, spill session path pieces) := by
  unfold writeAll
  by_cases fits : buffered.length + bytes.length ≤ bufferSize
  · by_cases small : bytes.length < bufferSize
    · simp only [fits, small, ↓reduceIte]
      exact ⟨[], _, rfl, fun session => rfl⟩
    · -- Bytes that fill the buffer leave no room for others in it.
      have none : buffered = [] := List.eq_nil_of_length_eq_zero (by omega)
      simp only [fits, small, ↓reduceIte]
      refine ⟨[bytes], _, ?_, fun session => rfl⟩
      rw [none, List.flatten_singleton, List.append_nil, List.nil_append]
  · by_cases small : bytes.length < bufferSize
    · simp only [fits, small, ↓reduceIte]
      exact ⟨[buffered], _, by rw [List.flatten_singleton]; rfl, fun session => rfl⟩
    · simp only [fits, small, ↓reduceIte]
      refine ⟨[buffered, bytes], _, ?_, fun session => rfl⟩
      rw [List.append_nil, List.flatten_cons, List.flatten_singleton]

theorem writeAll_disk (output : Output) (session : Session) (bytes : Bytes) :
    ∃ disk, (output.writeAll session bytes).2.2 =
      { session with store := { session.store with disk } } := by
  cases output with
  | sink s => exact ⟨session.store.disk, rfl⟩
  | file path buffered =>
      obtain ⟨pieces, kept, _, written⟩ := writeAll_file path buffered bytes
      rw [written]
      exact spill_disk session path pieces

/-- What an output adds of bytes that are written to it. -/
theorem holds_writeAll (output : Output) (session : Session) (bytes : Bytes) :
    ∃ added,
      (∀ held, output.Holds session held →
        (output.writeAll session bytes).2.1.Holds (output.writeAll session bytes).2.2
          (held ++ added)) ∧
      ((output.writeAll session bytes).1 = .ok () ∧ added = bytes ∨
        ∃ cause, (output.writeAll session bytes).1 = .error cause ∧
          added <+: bytes ∧ added ≠ bytes) := by
  cases output with
  | sink s =>
      cases written : s.writeAll rule bytes with
      | mk result after =>
          cases result with
          | ok =>
              refine ⟨bytes, ?_, .inl ⟨by simp [writeAll, written], rfl⟩⟩
              rintro _ ⟨⟩
              simp only [writeAll, written]
              rw [← Sink.contents_writeAll written]
              exact .sink
          | error cause =>
              obtain ⟨tail, part, short, contents⟩ := Sink.contents_writeAll_error written
              refine ⟨tail, ?_, .inr ⟨cause, by simp [writeAll, written], part, short⟩⟩
              rintro _ ⟨⟩
              simp only [writeAll, written]
              rw [← contents]
              exact .sink
  | file path buffered =>
      obtain ⟨pieces, kept, whole, written⟩ := writeAll_file path buffered bytes
      refine ⟨bytes, ?_, .inl ⟨by rw [written], rfl⟩⟩
      rintro _ ⟨⟩
      rename_i held found
      rw [written, List.append_assoc, ← whole, ← List.append_assoc]
      exact .file (get?_spill found pieces)

theorem isSink_writeAll (output : Output) (session : Session) (bytes : Bytes) :
    (output.writeAll session bytes).2.1.isSink = output.isSink := by
  cases output with
  | sink s => rfl
  | file path buffered =>
      obtain ⟨pieces, kept, _, written⟩ := writeAll_file path buffered bytes
      rw [written]
      rfl

theorem flushes_writeAll (output : Output) (session : Session) (bytes : Bytes) :
    (output.writeAll session bytes).2.1.flushes = output.flushes := by
  cases output with
  | sink s => exact Sink.flushes_writeAll rule s bytes
  | file path buffered =>
      obtain ⟨pieces, kept, _, written⟩ := writeAll_file path buffered bytes
      rw [written]
      rfl

theorem session_writeAll {output : Output} (isSink : output.isSink) (session : Session)
    (bytes : Bytes) : (output.writeAll session bytes).2.2 = session := by
  cases output with
  | sink s => rfl
  | file => cases isSink

theorem Accepting.writeAll {output : Output} (accepting : output.Accepting) (session : Session)
    (bytes : Bytes) :
    (output.writeAll session bytes).1 = .ok () ∧
      (output.writeAll session bytes).2.1.Accepting := by
  cases output with
  | sink s =>
      obtain ⟨after, written, still⟩ := Sink.Accepting.writeAll accepting rule bytes
      simp only [Output.writeAll, written]
      exact ⟨trivial, still⟩
  | file path buffered =>
      obtain ⟨pieces, kept, _, written⟩ := writeAll_file path buffered bytes
      rw [written]
      exact ⟨rfl, trivial⟩

end Output

end CsvImport
