import CsvImport.Proofs.Lossless
import CsvImport.Proofs.Writing
import Mathlib.Algebra.GroupWithZero.Nat

/-!
# Accounting for lines

A writer is used again and again, also after its sink has refused a line.  Whatever the sink does,
a write succeeds exactly if the sink took its whole line, only such lines are counted, and a line
that was refused leaves a part of itself behind and nothing else.  A writer that encodes all its
lines in one buffer does the same, so the buffer carries nothing from one line to another.
-/

namespace CsvImport

/-- The sink goes on as another one does, with what it has taken so far. -/
def Sink.goOnAs (sink other : Sink) : Sink :=
  { other with taken := sink.taken, writes := sink.writes, flushes := sink.flushes }

namespace Writer

/-- One use of a writer, or a change of its sink. -/
inductive Call where
  | write (doc : Document)
  | flush
  /-- The sink behaves differently from here on. -/
  | change (other : Sink)
deriving DecidableEq, Repr

def Call.line : Call → Bytes
  | write doc => Utf8.encode doc.line
  | flush => []
  | change _ => []

def call (writer : Writer) : Call → Except WriteError Unit × Writer
  | .write doc => writer.write doc
  | .flush => writer.flush
  | .change other => (.ok (), { writer with sink := writer.sink.goOnAs other })

def run (writer : Writer) : List Call → List (Except WriteError Unit) × Writer
  | [] => ([], writer)
  | call :: later =>
      let (result, next) := writer.call call
      let (results, last) := next.run later
      (result :: results, last)

/-- A call, how it ended, and what the sink took during it. -/
structure Use where
  call : Call
  result : Except WriteError Unit
  piece : Bytes

def uses (writer : Writer) : List Call → List Use
  | [] => []
  | call :: later =>
      let (result, next) := writer.call call
      let piece := next.sink.contents.drop writer.sink.contents.length
      ⟨call, result, piece⟩ :: next.uses later

namespace Use

/-- How many bytes a use counts: those of its line, if it wrote one. -/
def counted (use : Use) : Nat :=
  match use.result with
  | .ok () => use.call.line.length
  | .error _ => 0

/-- The sink took a part of the line, and all of it exactly if the line was reported written. -/
structure Fair (use : Use) : Prop where
  part : use.piece <+: use.call.line
  whole : ∀ doc, use.call = .write doc → (use.result = .ok () ↔ use.piece = use.call.line)

end Use

variable {writer after : Writer} {result : Except WriteError Unit}

/-- What one call does to the sink and to the count of bytes. -/
theorem call_cases {call : Call} (ends : writer.call call = (result, after)) :
    ∃ piece, Use.Fair ⟨call, result, piece⟩ ∧
      after.sink.contents = writer.sink.contents ++ piece ∧
      after.bytesWritten = writer.bytesWritten + Use.counted ⟨call, result, piece⟩ := by
  cases call with
  | write doc =>
      unfold Writer.call write at ends
      rcases written : writer.sink.writeAll rule (Utf8.encode doc.line) with
        ⟨cause | _, sink⟩
      · simp only [written] at ends
        cases ends
        obtain ⟨piece, part, short, taken⟩ := Sink.contents_writeAll_error written
        refine ⟨piece, ⟨part, fun _ _ => ⟨fun same => ?_, fun same => absurd same short⟩⟩,
          taken, rfl⟩
        cases same
      · simp only [written] at ends
        cases ends
        exact ⟨_, ⟨List.prefix_rfl, fun _ _ => ⟨fun _ => rfl, fun _ => rfl⟩⟩,
          Sink.contents_writeAll written, rfl⟩
  | flush =>
      have same : writer.sink.flush.2.contents = writer.sink.contents := rfl
      cases ends
      refine ⟨[], ⟨List.nil_prefix, fun _ other => by cases other⟩, ?_, ?_⟩
      · exact same.trans (List.append_nil _).symm
      · unfold Use.counted
        split <;> rfl
  | change other =>
      cases ends
      exact ⟨[], ⟨List.nil_prefix, fun _ other => by cases other⟩, (List.append_nil _).symm, rfl⟩

theorem map_call_uses (writer : Writer) (calls : List Call) :
    (writer.uses calls).map Use.call = calls := by
  induction calls generalizing writer with
  | nil => rfl
  | cons call later ih => exact congrArg (call :: ·) (ih _)

theorem map_result_uses (writer : Writer) (calls : List Call) :
    (writer.uses calls).map Use.result = (writer.run calls).1 := by
  induction calls generalizing writer with
  | nil => rfl
  | cons call later ih => exact congrArg ((writer.call call).1 :: ·) (ih _)

/-- The first use, and those behind it. -/
theorem uses_cons {call : Call} (ends : writer.call call = (result, after)) (later : List Call) :
    ∃ piece, Use.Fair ⟨call, result, piece⟩ ∧
      writer.uses (call :: later) = ⟨call, result, piece⟩ :: after.uses later ∧
      after.sink.contents = writer.sink.contents ++ piece ∧
      after.bytesWritten = writer.bytesWritten + Use.counted ⟨call, result, piece⟩ := by
  obtain ⟨piece, fair, contents, counted⟩ := call_cases ends
  refine ⟨piece, fair, ?_, contents, counted⟩
  simp only [uses, ends, contents, List.drop_left]

theorem run_cons {call : Call} (ends : writer.call call = (result, after)) (later : List Call) :
    writer.run (call :: later) = (result :: (after.run later).1, (after.run later).2) := by
  simp only [run, ends]

theorem fair_of_mem_uses (writer : Writer) (calls : List Call) :
    ∀ use ∈ writer.uses calls, use.Fair := by
  induction calls generalizing writer with
  | nil => exact fun _ member => absurd member List.not_mem_nil
  | cons call later ih =>
      obtain ⟨piece, fair, uses, -⟩ := uses_cons (Prod.eta (writer.call call)).symm later
      rw [uses]
      exact List.forall_mem_cons.mpr ⟨fair, ih _⟩

/-- The sink holds the pieces it took, in the order of the calls. -/
theorem contents_run (writer : Writer) (calls : List Call) :
    (writer.run calls).2.sink.contents =
      writer.sink.contents ++ ((writer.uses calls).map Use.piece).flatten := by
  induction calls generalizing writer with
  | nil => exact (List.append_nil _).symm
  | cons call later ih =>
      have ends := (Prod.eta (writer.call call)).symm
      obtain ⟨piece, -, uses, contents, -⟩ := uses_cons ends later
      rw [run_cons ends, uses, ih, contents, List.append_assoc]
      rfl

theorem bytesWritten_run (writer : Writer) (calls : List Call) :
    (writer.run calls).2.bytesWritten =
      writer.bytesWritten + ((writer.uses calls).map Use.counted).sum := by
  induction calls generalizing writer with
  | nil => rfl
  | cons call later ih =>
      have ends := (Prod.eta (writer.call call)).symm
      obtain ⟨piece, -, uses, -, counted⟩ := uses_cons ends later
      rw [run_cons ends, uses, ih, counted, List.map_cons, List.sum_cons, Nat.add_assoc]

end Writer

/-- A writer that encodes every line in one buffer, which it keeps from line to line. -/
structure BufferedWriter where
  sink : Sink
  /-- The line that was encoded last. -/
  buffer : Bytes := []
  bytesWritten : Nat := 0
deriving DecidableEq, Repr, Inhabited

namespace BufferedWriter

def clear (writer : BufferedWriter) : BufferedWriter :=
  { writer with buffer := [] }

def encode (writer : BufferedWriter) (doc : Document) : BufferedWriter :=
  { writer with buffer := writer.buffer ++ doc.encoded ++ [Bytes.lf] }

def passOn (writer : BufferedWriter) : Except WriteError Unit × BufferedWriter :=
  match writer.sink.writeAll Writer.rule writer.buffer with
  | (.error cause, sink) => (.error ⟨cause⟩, { writer with sink })
  | (.ok (), sink) =>
      (.ok (), { writer with sink, bytesWritten := writer.bytesWritten + writer.buffer.length })

def call (writer : BufferedWriter) : Writer.Call → Except WriteError Unit × BufferedWriter
  | .write doc => (writer.clear.encode doc).passOn
  | .flush =>
      let (result, sink) := writer.sink.flush
      (result.mapError WriteError.mk, { writer with sink })
  | .change other => (.ok (), { writer with sink := writer.sink.goOnAs other })

def run (writer : BufferedWriter) :
    List Writer.Call → List (Except WriteError Unit) × BufferedWriter
  | [] => ([], writer)
  | call :: later =>
      let (result, next) := writer.call call
      let (results, last) := next.run later
      (result :: results, last)

def toWriter (writer : BufferedWriter) : Writer where
  sink := writer.sink
  bytesWritten := writer.bytesWritten

/-- What the buffer holds when a document is written does not matter. -/
theorem call_toWriter (writer : BufferedWriter) (call : Writer.Call) :
    writer.toWriter.call call = ((writer.call call).1, (writer.call call).2.toWriter) := by
  cases call with
  | write doc =>
      have line : (writer.clear.encode doc).buffer = Utf8.encode doc.line := by
        rw [Document.encode_line]
        rfl
      have sink : (writer.clear.encode doc).sink = writer.toWriter.sink := rfl
      unfold BufferedWriter.call Writer.call passOn Writer.write
      simp only [line, sink]
      rcases writer.toWriter.sink.writeAll Writer.rule (Utf8.encode doc.line) with
        ⟨_ | _, after⟩ <;> rfl
  | flush => rfl
  | change other => rfl

theorem run_toWriter (writer : BufferedWriter) (calls : List Writer.Call) :
    writer.toWriter.run calls = ((writer.run calls).1, (writer.run calls).2.toWriter) := by
  induction calls generalizing writer with
  | nil => rfl
  | cons call later ih => rw [Writer.run_cons (call_toWriter writer call), ih, run]

/-- A writer accounts for exactly the lines that its sink took whole, whatever calls are made and
whatever the sink does in between.  The sink holds what it took during each call, in order: of a
line that was written all of it, of a line that was refused a part at the front, and of no other
line anything.  The buffer that the lines are encoded in makes no difference. -/
theorem run_accounts (writer : BufferedWriter) (calls : List Writer.Call) :
    let uses := writer.toWriter.uses calls
    let after := (writer.run calls).2
    uses.map Writer.Use.call = calls ∧
    uses.map Writer.Use.result = (writer.run calls).1 ∧
    after.sink.contents = writer.sink.contents ++ (uses.map Writer.Use.piece).flatten ∧
    after.bytesWritten = writer.bytesWritten + (uses.map Writer.Use.counted).sum ∧
    (∀ use ∈ uses, use.piece <+: use.call.line ∧
      ∀ doc, use.call = .write doc → (use.result = .ok () ↔ use.piece = Utf8.encode doc.line)) ∧
    writer.toWriter.run calls = ((writer.run calls).1, after.toWriter) := by
  intro uses after
  have plain := run_toWriter writer calls
  have results : (writer.toWriter.run calls).1 = (writer.run calls).1 := by rw [plain]
  have last : (writer.toWriter.run calls).2 = after.toWriter := by rw [plain]
  have contents := writer.toWriter.contents_run calls
  have counted := writer.toWriter.bytesWritten_run calls
  rw [last] at contents counted
  refine ⟨writer.toWriter.map_call_uses calls,
    (writer.toWriter.map_result_uses calls).trans results, contents, counted,
    fun use member => ?_, plain⟩
  have fair := writer.toWriter.fair_of_mem_uses calls use member
  refine ⟨fair.part, fun doc isWrite => ?_⟩
  have whole := fair.whole doc isWrite
  rwa [isWrite] at whole

/-- A line is refused in the middle and written again when the sink has room. -/
example :
    let doc : Document := ⟨⟨["a"], by decide, by decide, by decide⟩, ["1"], rfl⟩
    let writer : BufferedWriter := { sink := { room := some 3, maxWrite := some 2 }, buffer := [0] }
    let (results, after) := writer.run
      [.write doc, .change { maxWrite := some 2 }, .write doc, .flush]
    results = [.error ⟨"sink is full"⟩, .ok (), .ok (), .ok ()] ∧
      after.sink.contents = Utf8.encode ("\x7b\"a" ++ "\x7b\"a\":\"1\"\x7d\n") ∧
      after.bytesWritten = 10 := by
  decide +kernel

end BufferedWriter

end CsvImport
