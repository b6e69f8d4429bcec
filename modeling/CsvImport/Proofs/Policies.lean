import CsvImport.Proofs.FirstFailure
import Mathlib.Data.List.TakeWhile

/-!
# Arity policies

The policies differ in short rows only.  What the lenient policy writes for them is missing under
the one that leaves them out, and where that one leaves out a row for the first time, or
where both fail, the strict policy fails.
-/

namespace CsvImport

/-! ## The first item with one of two properties -/

section

variable {α : Type} (first second : α → Bool) (items : List α)

theorem takeWhile_not_or : items.takeWhile (fun item => !(first item || second item)) =
    (items.takeWhile fun item => !first item).takeWhile fun item => !second item := by
  rw [List.takeWhile_takeWhile]
  congr 1
  funext item
  simp [Bool.and_comm]

theorem find?_or_eq_none : items.find? (fun item => first item || second item) = none ↔
    items.find? first = none ∧ (items.takeWhile fun item => !first item).countP second = 0 := by
  simp only [List.find?_eq_none, List.countP_eq_zero, Bool.or_eq_true, not_or]
  constructor
  · intro none
    refine ⟨fun item member => (none item member).1, fun item member => ?_⟩
    exact (none item ((List.takeWhile_sublist _).subset member)).2
  · rintro ⟨none, others⟩ item member
    have whole : items.takeWhile (fun item => !first item) = items :=
      List.takeWhile_eq_self_iff.mpr fun item member => by simp [none item member]
    exact ⟨none item member, others item (whole.symm ▸ member)⟩

end

/-! ## Assembling under each policy -/

section

variable (header : Header) (row : List String)

theorem assemble_strict : assemble .strict header row =
    if row.length < header.names.length then .error ⟨header.size, row.length⟩
    else assemble .lenient header row := by
  unfold assemble
  split
  · rw [if_neg (by omega)]
  · split <;> rfl

/-- Short rows can be left out instead. -/
theorem assemble_skipShort : assemble .skipShort header row =
    if row.length < header.names.length then .ok .skipped
    else assemble .lenient header row := by
  unfold assemble
  split
  · rw [if_neg (by omega)]
  · split <;> rfl

/-- A row has a document under the lenient policy unless it is too long. -/
theorem assemble_lenient :
    (∃ doc, assemble .lenient header row = .ok (.document doc)) ∨
      header.names.length < row.length ∧
        assemble .lenient header row = .error ⟨header.size, row.length⟩ := by
  unfold assemble
  split
  · exact .inl ⟨_, rfl⟩
  · split
    · exact .inl ⟨_, rfl⟩
    · exact .inr ⟨by omega, rfl⟩

end

namespace Ingester

/-- The counts that an ingestion returns, with its error if it fails. -/
def reported : Except IngestError Counts → Counts
  | .ok counts => counts
  | .error e => e.before

def faultOf : Except DecodeError (Item String) → FailureKind
  | .error e => e.kind
  | .ok _ => .arityMismatch

def isShort (header : Header) : Except DecodeError (Item String) → Bool
  | .ok (.row row) => decide (row.fields.length < header.names.length)
  | _ => false

section

variable {ingester : Ingester} {sink after : Sink} {before : Counts}
  {failing : Except DecodeError (Item String)} {e : IngestError}

/-- A sink that takes everything is left alone by an item that fails, which is then refused. -/
theorem Fails.of_accepting (accepting : sink.Accepting)
    (fails : ingester.Fails before sink failing e after) :
    ingester.refuses failing = true ∧ after = sink ∧ e.kind = faultOf failing := by
  cases fails with
  | decode e => exact ⟨rfl, rfl, rfl⟩
  | assemble refused =>
      refine ⟨?_, rfl, rfl⟩
      simp only [refuses, refused]
  | encode fits refused =>
      obtain ⟨next, taken, -⟩ := accepting.writeAll Writer.rule (Utf8.encode _)
      cases taken.symm.trans refused

/-- An ingestion has gone on to the first item that is refused. -/
structure GoesTo (ingester : Ingester) (items : List (Except DecodeError (Item String)))
    (refused : Except DecodeError (Item String) → Bool) (sink : Sink)
    (outcome : Except IngestError Counts × Ingestion) : Prop where
  contents : outcome.2.writer.sink.contents = sink.contents ++
    (ingester.linesOf (items.takeWhile fun item => !refused item)).flatten
  written : (reported outcome.1).written =
    ((items.takeWhile fun item => !refused item).filterMap ingester.document?).length
  skipped : (reported outcome.1).skipped =
    (items.takeWhile fun item => !refused item).countP ingester.leavesOut
  isOk : outcome.1.isOk ↔ items.find? refused = none
  error : ∀ e, outcome.1 = .error e → ∃ failing, items.find? refused = some failing ∧
    e.kind = faultOf failing ∧ e.line ∈ Decoder.lineOf? failing

/-- An ingestion into a sink that takes everything goes on to the first item that is refused. -/
theorem ingest_of_accepting (accepting : sink.Accepting) (ingester : Ingester)
    (decoder : Decoder) {refused : Except DecodeError (Item String) → Bool}
    (refuses : ingester.refuses = refused) :
    ingester.GoesTo (decoder.records ingester.dialect).1 refused sink
      (ingester.ingest decoder sink) := by
  subst refuses
  generalize items_eq : (decoder.records ingester.dialect).1 = items
  rcases ingester.ingest_stops decoder sink with ⟨run, passed, ended⟩ |
    ⟨front, failing, later, run, e, after, split, passed, fails, ended⟩
  · rw [items_eq] at passed
    have none : items.find? ingester.refuses = none :=
      List.find?_eq_none.mpr fun item member => by simp [passed.fits item member]
    have whole : items.takeWhile (fun item => !ingester.refuses item) = items :=
      List.takeWhile_eq_self_iff.mpr fun item member => by simp [passed.fits item member]
    rw [ended]
    exact {
      contents := by rw [whole]; exact Sink.contents_writeEach passed.handed
      written := by rw [whole]; exact passed.written
      skipped := by rw [whole]; exact passed.skipped
      isOk := iff_of_true rfl none
      error := by rintro _ ⟨⟩ }
  · rw [items_eq] at split
    obtain ⟨refused, rfl, kind⟩ := fails.of_accepting (accepting.writeEach passed.handed)
    have first : items.find? ingester.refuses = some failing := by
      refine List.find?_eq_some_iff_append.mpr
        ⟨refused, front, later, split, fun item member => ?_⟩
      simp [passed.fits item member]
    have before : items.takeWhile (fun item => !ingester.refuses item) = front := by
      rw [split, List.takeWhile_append_of_pos, List.takeWhile_cons_of_neg]
      · exact List.append_nil front
      · simp [refused]
      · intro item member
        simp [passed.fits item member]
    have counted : reported (.error e) = run.counts := fails.before_eq
    rw [ended]
    exact {
      contents := by rw [before]; exact Sink.contents_writeEach passed.handed
      written := by rw [before, counted]; exact passed.written
      skipped := by rw [before, counted]; exact passed.skipped
      isOk := by rw [first]; exact iff_of_false Bool.false_ne_true (Option.some_ne_none _)
      error := by
        rintro _ ⟨⟩
        exact ⟨failing, first, kind, fails.line_mem⟩ }

theorem GoesTo.together {other : Ingester} {items : List (Except DecodeError (Item String))}
    {refused : Except DecodeError (Item String) → Bool}
    {outcome outcome' : Except IngestError Counts × Ingestion}
    (former : ingester.GoesTo items refused sink outcome)
    (latter : other.GoesTo items refused sink outcome') :
    (outcome.1.isOk ↔ outcome'.1.isOk) ∧
      ∀ e, outcome.1 = .error e → ∃ e' failing, outcome'.1 = .error e' ∧
        e'.kind = e.kind ∧ e'.line = e.line ∧ items.find? refused = some failing ∧
        e.line ∈ Decoder.lineOf? failing := by
  refine ⟨former.isOk.trans latter.isOk.symm, fun e failed => ?_⟩
  obtain ⟨failing, first, kind, line⟩ := former.error e failed
  rcases failed' : outcome'.1 with e' | _
  · obtain ⟨failing', first', kind', line'⟩ := latter.error e' failed'
    obtain rfl : failing = failing' := Option.some.inj (first.symm.trans first')
    exact ⟨e', failing, rfl, kind'.trans kind.symm, Option.mem_unique line' line, first, line⟩
  · have none := latter.isOk.mp (by rw [failed']; rfl)
    cases none.symm.trans first

end

/-! ## Short rows -/

section

variable {sink : Sink} (header : Header) (d : Dialect)

def under (header : Header) (d : Dialect) (policy : ArityPolicy) : Ingester :=
  { header, dialect := d, policy }

theorem refuses_skipShort (item : Except DecodeError (Item String)) :
    (under header d .skipShort).refuses item = (under header d .lenient).refuses item := by
  rcases item with e | row | _
  · rfl
  · rcases assemble_lenient header row.fields with ⟨doc, found⟩ | ⟨long, found⟩
    · by_cases short : row.fields.length < header.names.length <;>
        simp [refuses, under, assemble_skipShort, found, short]
    · simp [refuses, under, assemble_skipShort, found, Nat.lt_asymm long]
  · rfl

theorem refuses_strict (item : Except DecodeError (Item String)) :
    (under header d .strict).refuses item =
      ((under header d .lenient).refuses item || isShort header item) := by
  rcases item with e | row | _
  · rfl
  · by_cases short : row.fields.length < header.names.length <;>
      simp [refuses, under, isShort, assemble_strict, short]
  · rfl

/-- Under the policy that leaves out short rows, the others keep their documents. -/
theorem document?_skipShort (item : Except DecodeError (Item String)) :
    (under header d .skipShort).document? item =
      if isShort header item then none else (under header d .lenient).document? item := by
  rcases item with e | row | _
  · rfl
  · by_cases short : row.fields.length < header.names.length <;>
      simp [document?, under, isShort, assemble_skipShort, short]
  · rfl

theorem document?_strict (item : Except DecodeError (Item String)) :
    (under header d .strict).document? item =
      if isShort header item then none else (under header d .lenient).document? item := by
  rcases item with e | row | _
  · rfl
  · by_cases short : row.fields.length < header.names.length <;>
      simp [document?, under, isShort, assemble_strict, short]
  · rfl

theorem leavesOut_skipShort (item : Except DecodeError (Item String)) :
    (under header d .skipShort).leavesOut item = isShort header item := by
  rcases item with e | row | _
  · rfl
  · rcases assemble_lenient header row.fields with ⟨doc, found⟩ | ⟨long, found⟩ <;>
      by_cases short : row.fields.length < header.names.length <;>
      simp [leavesOut, under, isShort, assemble_skipShort, found, short]
  · rfl

theorem leavesOut_lenient (item : Except DecodeError (Item String)) :
    (under header d .lenient).leavesOut item = false := by
  rcases item with e | row | _
  · rfl
  · rcases assemble_lenient header row.fields with ⟨doc, found⟩ | ⟨-, found⟩ <;>
      simp only [leavesOut, under, found]
  · rfl

/-- What the lenient policy writes for short rows is missing under the policy that leaves them
out. -/
theorem linesOf_skipShort (items : List (Except DecodeError (Item String))) :
    (under header d .skipShort).linesOf items =
      (under header d .lenient).linesOf (items.filter fun item => !isShort header item) := by
  unfold linesOf
  rw [List.filterMap_filter]
  congr 1
  apply List.filterMap_congr
  intro item _
  rw [document?_skipShort]
  cases isShort header item <;> rfl

/-- Without short rows, the policies write the same. -/
theorem linesOf_strict {items : List (Except DecodeError (Item String))}
    (long : ∀ item ∈ items, isShort header item = false) :
    (under header d .strict).linesOf items = (under header d .lenient).linesOf items := by
  unfold linesOf
  congr 1
  apply List.filterMap_congr
  intro item member
  rw [document?_strict, long item member]
  rfl

theorem document?_of_isShort {item : Except DecodeError (Item String)}
    (short : isShort header item = true) :
    ((under header d .lenient).document? item).isSome := by
  rcases item with e | row | _
  · cases short
  · rcases assemble_lenient header row.fields with ⟨doc, found⟩ | ⟨long, found⟩
    · simp only [document?, under, found, Option.isSome_some]
    · exact absurd (of_decide_eq_true short) (Nat.lt_asymm long)
  · cases short

/-- Rows are written by the lenient policy that the other one counts as left out. -/
theorem written_lenient (items : List (Except DecodeError (Item String))) :
    (items.filterMap (under header d .lenient).document?).length =
      (items.filterMap (under header d .skipShort).document?).length +
        items.countP (isShort header) := by
  induction items with
  | nil => rfl
  | cons item later ih =>
      have both := document?_skipShort header d item
      rcases short : isShort header item with _ | _
      · rw [short, if_neg Bool.false_ne_true] at both
        rw [List.filterMap_cons, List.filterMap_cons, both, List.countP_cons, short]
        rcases (under header d .lenient).document? item <;> simp [ih, Nat.add_right_comm]
      · obtain ⟨doc, found⟩ := Option.isSome_iff_exists.mp (document?_of_isShort header d short)
        rw [short, if_pos rfl] at both
        rw [List.filterMap_cons, List.filterMap_cons, both, List.countP_cons, short, found]
        simp [ih, Nat.add_assoc]

/-! ## The three outcomes -/

/-- The outcomes under each policy, where the lenient one and the one that leaves out short rows
go equally far. -/
structure Outcomes (header : Header) (d : Dialect) (items : List (Except DecodeError (Item String)))
    (sink : Sink) (outcome : ArityPolicy → Except IngestError Counts × Ingestion) : Prop where
  lenient : (under header d .lenient).GoesTo items (under header d .lenient).refuses sink
    (outcome .lenient)
  skipShort : (under header d .skipShort).GoesTo items (under header d .lenient).refuses sink
    (outcome .skipShort)
  strict : (under header d .strict).GoesTo items (fun item =>
    (under header d .lenient).refuses item || (under header d .skipShort).leavesOut item) sink
    (outcome .strict)

theorem outcomes_ingest (accepting : sink.Accepting) (header : Header) (d : Dialect)
    (decoder : Decoder) :
    Outcomes header d (decoder.records d).1 sink fun policy =>
      (under header d policy).ingest decoder sink where
  lenient := (under header d .lenient).ingest_of_accepting accepting decoder rfl
  skipShort := (under header d .skipShort).ingest_of_accepting accepting decoder
    (funext (refuses_skipShort header d))
  strict := (under header d .strict).ingest_of_accepting accepting decoder (by
    funext item
    rw [refuses_strict, leavesOut_skipShort])

namespace Outcomes

variable {header : Header} {d : Dialect} {items : List (Except DecodeError (Item String))}
  {outcome : ArityPolicy → Except IngestError Counts × Ingestion}
  (outcomes : Outcomes header d items sink outcome)

include outcomes

/-- Short rows are written by the lenient policy, which leaves out nothing. -/
theorem counts :
    (reported (outcome .lenient).1).written =
        (reported (outcome .skipShort).1).written + (reported (outcome .skipShort).1).skipped ∧
      (reported (outcome .lenient).1).skipped = 0 := by
  constructor
  · rw [outcomes.lenient.written, outcomes.skipShort.written, outcomes.skipShort.skipped,
      written_lenient, funext (leavesOut_skipShort header d)]
  · refine outcomes.lenient.skipped.trans (List.countP_eq_zero.mpr fun item _ => ?_)
    rw [leavesOut_lenient]
    exact Bool.false_ne_true

theorem contents_skipShort :
    (outcome .skipShort).2.writer.sink.contents = sink.contents ++
      ((under header d .lenient).linesOf
        ((items.takeWhile fun item => !(under header d .lenient).refuses item).filter
          fun item => !isShort header item)).flatten := by
  rw [outcomes.skipShort.contents, linesOf_skipShort]

/-- The strict policy writes what the lenient one writes in front of the first short row. -/
theorem contents_strict :
    (outcome .strict).2.writer.sink.contents = sink.contents ++
      ((under header d .lenient).linesOf (items.takeWhile fun item =>
        !((under header d .lenient).refuses item ||
          (under header d .skipShort).leavesOut item))).flatten := by
  rw [outcomes.strict.contents, linesOf_strict]
  intro item member
  have passed := List.mem_takeWhile_imp member
  rw [Bool.not_eq_true', Bool.or_eq_false_iff, leavesOut_skipShort] at passed
  exact passed.2

/-- The strict policy fails unless the lenient one succeeds and the other leaves out nothing. -/
theorem isOk_strict :
    (outcome .strict).1.isOk ↔
      (outcome .lenient).1.isOk ∧ (reported (outcome .skipShort).1).skipped = 0 := by
  rw [outcomes.strict.isOk, outcomes.lenient.isOk, outcomes.skipShort.skipped]
  exact find?_or_eq_none _ _ items

/-- Where no short row is left out, the policies write the same. -/
theorem contents_same (none : (reported (outcome .skipShort).1).skipped = 0) :
    (outcome .strict).2.writer.sink.contents = (outcome .lenient).2.writer.sink.contents ∧
      (outcome .strict).2.writer.sink.contents =
        (outcome .skipShort).2.writer.sink.contents := by
  rw [outcomes.skipShort.skipped, List.countP_eq_zero,
    funext (leavesOut_skipShort header d)] at none
  rw [outcomes.contents_strict, outcomes.contents_skipShort, outcomes.lenient.contents,
    takeWhile_not_or, funext (leavesOut_skipShort header d)]
  generalize items.takeWhile (fun item => !(under header d .lenient).refuses item) = done at none
  have whole : done.takeWhile (fun item => !isShort header item) = done :=
    List.takeWhile_eq_self_iff.mpr fun item member => by simp [none item member]
  have kept : done.filter (fun item => !isShort header item) = done :=
    List.filter_eq_self.mpr fun item member => by simp [none item member]
  rw [whole, kept]
  exact ⟨rfl, rfl⟩

/-- The strict policy writes no more than the lenient one. -/
theorem prefix_lenient :
    (outcome .strict).2.writer.sink.contents <+: (outcome .lenient).2.writer.sink.contents := by
  rw [outcomes.contents_strict, outcomes.lenient.contents, takeWhile_not_or]
  generalize items.takeWhile (fun item => !(under header d .lenient).refuses item) = done
  obtain ⟨rest, parts⟩ := done.takeWhile_prefix fun item =>
    !(under header d .skipShort).leavesOut item
  conv => rhs; rw [← parts]
  rw [linesOf_append, List.flatten_append]
  exact (List.prefix_append_right_inj _).mpr (List.prefix_append ..)

end Outcomes

/-- The policies differ in short rows only.  The lenient policy and the one that leaves out short
rows fail together, and what the latter writes is what the former writes without the lines of the
short rows.  The strict policy fails where one of them fails or leaves out a row for the first time;
if that never happens, the three write the same. -/
theorem ingest_policies (accepting : sink.Accepting) (header : Header) (d : Dialect)
    (chunk : Bytes) (firstLine : Nat) :
    let items := ((Decoder.ofBytes chunk firstLine).records d).1
    let outcome := fun policy =>
      (under header d policy).ingest (Decoder.ofBytes chunk firstLine) sink
    let counts := fun policy => reported (outcome policy).1
    let output := fun policy => (outcome policy).2.writer.sink.contents
    let lenient := under header d .lenient
    let skipShort := under header d .skipShort
    let done := items.takeWhile fun item => !lenient.refuses item
    let refused := fun item => lenient.refuses item || skipShort.leavesOut item
    ((outcome .lenient).1.isOk ↔ (outcome .skipShort).1.isOk) ∧
    (∀ e, (outcome .lenient).1 = .error e → ∃ other failing,
      (outcome .skipShort).1 = .error other ∧ other.kind = e.kind ∧ other.line = e.line ∧
        items.find? lenient.refuses = some failing ∧ e.line ∈ Decoder.lineOf? failing) ∧
    (counts .lenient).written = (counts .skipShort).written + (counts .skipShort).skipped ∧
    (counts .lenient).skipped = 0 ∧
    output .lenient = sink.contents ++ (lenient.linesOf done).flatten ∧
    output .skipShort = sink.contents ++
      (lenient.linesOf (done.filter fun item => !isShort header item)).flatten ∧
    ((outcome .strict).1.isOk ↔
      (outcome .lenient).1.isOk ∧ (counts .skipShort).skipped = 0) ∧
    ((outcome .strict).1.isOk →
      output .strict = output .lenient ∧ output .strict = output .skipShort) ∧
    (∀ e, (outcome .strict).1 = .error e →
      output .strict <+: output .lenient ∧
      output .strict = sink.contents ++
        (lenient.linesOf (items.takeWhile fun item => !refused item)).flatten ∧
      ∃ failing, items.find? refused = some failing ∧ e.kind = faultOf failing ∧
        e.line ∈ Decoder.lineOf? failing) := by
  intro items outcome counts output lenient skipShort done refused
  have outcomes : Outcomes header d items sink outcome := outcomes_ingest accepting header d _
  obtain ⟨together, errors⟩ := outcomes.lenient.together outcomes.skipShort
  obtain ⟨written, none⟩ := outcomes.counts
  exact ⟨together, errors, written, none, outcomes.lenient.contents, outcomes.contents_skipShort,
    outcomes.isOk_strict, fun fine => outcomes.contents_same (outcomes.isOk_strict.mp fine).2,
    fun e failed =>
      ⟨outcomes.prefix_lenient, outcomes.contents_strict, outcomes.strict.error e failed⟩⟩

/-- A short row stands in front of a row that is too long. -/
theorem ingest_policies_longRow :
    let header : Header := ⟨["a", "b"], by decide, by decide, by decide⟩
    let outcome := fun policy =>
      (under header {} policy).ingest (.ofBytes [49, 44, 50, 10, 51, 10, 52, 44, 53, 44, 54, 10]) {}
    Sink.Accepting {} ∧
      (outcome .lenient).1 = .error (.assemble ⟨2, 3⟩ 3 ⟨2, 0⟩) ∧
      (∃ other, (outcome .skipShort).1 = .error other ∧ other.kind = .arityMismatch ∧
        other.line = 3 ∧ other.before.written + other.before.skipped = 2) ∧
      (outcome .strict).1 = .error (.assemble ⟨2, 1⟩ 2 ⟨1, 0⟩) ∧
      (outcome .strict).2.writer.sink.contents <+: (outcome .lenient).2.writer.sink.contents := by
  intro header outcome
  have lenient : (outcome .lenient).1 = .error (.assemble ⟨2, 3⟩ 3 ⟨2, 0⟩) := by
    unfold outcome
    decide +kernel
  have strict : (outcome .strict).1 = .error (.assemble ⟨2, 1⟩ 2 ⟨1, 0⟩) := by
    unfold outcome
    decide +kernel
  obtain ⟨-, together, written, -, -, -, -, -, cut⟩ := ingest_policies Sink.accepting_default
    header {} [49, 44, 50, 10, 51, 10, 52, 44, 53, 44, 54, 10] 1
  obtain ⟨other, -, failed, kind, line, -, -⟩ := together _ lenient
  have both : 2 = other.before.written + other.before.skipped := by
    have same := congrArg reported failed
    change _ = other.before at same
    rw [← same]
    exact (congrArg (fun outcome => (reported outcome).written) lenient).symm.trans written
  exact ⟨Sink.accepting_default, lenient, ⟨other, failed, kind, line, both.symm⟩, strict,
    (cut _ strict).1⟩

end

end Ingester

end CsvImport
