import CsvImport.Proofs.Metering
import CsvImport.Proofs.Splitting

/-!
# Empty sources

A source is empty if there are at most blank lines behind its byte order mark.  A job that is given
no header counts its empty sources apart, since they have none.  A job that is given a header counts
every source alike.
-/

namespace CsvImport

namespace Source

/-- Whether there is no record among the bytes of a source. -/
def isEmpty (d : Dialect) (data : Bytes) : Bool :=
  ((Decoder.ofBytes data.afterByteOrderMark).records d).1.all fun
    | .ok .blank => true
    | _ => false

theorem isEmpty_iff {d : Dialect} {data : Bytes} :
    isEmpty d data = true ↔
      ∀ item ∈ ((Decoder.ofBytes data.afterByteOrderMark).records d).1, item = .ok .blank := by
  rw [isEmpty, List.all_eq_true]
  refine forall₂_congr fun item _ => ?_
  rcases item with e | row | _
  · exact ⟨nofun, nofun⟩
  · exact ⟨nofun, nofun⟩
  · exact ⟨fun _ => rfl, fun _ => rfl⟩

theorem isEmpty_nil (d : Dialect) : isEmpty d [] = true := by
  unfold isEmpty
  rw [Decoder.records_of_none (Decoder.next_of_nil rfl)]
  rfl

/-- Nothing is prepared just if no header is given and the source is empty. -/
theorem prepare_none_iff {d : Dialect} {configured : Option Header} {chunkSize : Nat}
    {path : String} {data : Bytes} :
    prepare d configured chunkSize path data = .ok none ↔
      configured = none ∧ isEmpty d data = true := by
  cases configured with
  | none =>
      rw [prepare_eq_none_iff, Decoder.nextRow_eq_none_iff, isEmpty_iff]
      exact ⟨fun blank => ⟨rfl, blank⟩, And.right⟩
  | some header => exact ⟨nofun, nofun⟩

end Source

namespace Job

/-- Whether a job counts a source with these bytes as empty. -/
def countsEmpty (job : Job) (data : Bytes) : Bool :=
  job.header.isNone && Source.isEmpty job.dialect data

/-- In front of the sources at the paths, the first of them is loaded as the bytes. -/
def Loads (job : Job) (schedule : Schedule) (start : Stage) (paths : List String) (data : Bytes) :
    Prop :=
  ∃ moves run path more, paths = path :: more ∧
    job.stage schedule start moves = .between run paths ∧ (load path run.session).1 = .ok data

/-- An import counts each source at the paths, as empty or not. -/
structure CountsSources (job : Job) (schedule : Schedule) (start : Run) (paths : List String)
    (data : List Bytes) (summary : Summary) : Prop where
  length : data.length = paths.length
  loads : ∀ index bytes, data[index]? = some bytes →
    job.Loads schedule (.between start paths) (paths.drop index) bytes
  sources : summary.sources =
    start.summary.sources + data.countP fun bytes => !job.countsEmpty bytes
  emptySources : summary.emptySources = start.summary.emptySources + data.countP job.countsEmpty

section

variable {job : Job} {schedule : Schedule} {run : Run}

/-- What is loaded behind some moves is loaded. -/
theorem Loads.behind {start between : Stage} {moves : Nat}
    (reached : job.stage schedule start moves = between) {paths : List String} {data : Bytes}
    (loads : job.Loads schedule between paths data) : job.Loads schedule start paths data := by
  obtain ⟨later, run, path, more, same, stage, loaded⟩ := loads
  refine ⟨moves + later, run, path, more, same, ?_, loaded⟩
  rw [stage_add, reached, stage]

/-- An import that goes on to its end takes up the next source, counts it and leaves it. -/
theorem takes_source {path : String} {more : List String} {ended : Except FatalError Unit × Run}
    (ends : job.importSources schedule run (path :: more) = ended) (fine : ended.1 = .ok ())
    (whole : ended.2.summary.cancelled = false) :
    ∃ bytes moves after, (load path run.session).1 = .ok bytes ∧
      job.stage schedule (.between run (path :: more)) moves = .between after more ∧
      job.importSources schedule after more = ended ∧
      if job.countsEmpty bytes then
        after.summary.sources = run.summary.sources ∧
          after.summary.emptySources = run.summary.emptySources + 1
      else
        after.summary.sources = run.summary.sources + 1 ∧
          after.summary.emptySources = run.summary.emptySources := by
  have first : job.stage schedule (.between run (path :: more)) 1 =
      job.takeUp schedule run path more := rfl
  have counted : (run.ask schedule).2.summary = run.summary := rfl
  have session : (run.ask schedule).2.session = run.session := rfl
  unfold takeUp at first
  unfold importSources at ends
  simp only at first ends
  generalize (run.ask schedule).2 = now at first counted session ends
  by_cases stopping : now.stopping = true
  · rw [if_pos stopping] at ends
    cases ends
    cases whole
  · rw [if_neg stopping] at first ends
    rcases prepared : job.prepare path now.session with ⟨e | _ | source, later⟩ <;>
      simp only [prepared] at first ends
    · cases ends
      cases fine
    · obtain ⟨bytes, loaded, none⟩ := loaded_of_prepare (congrArg Prod.fst prepared)
      obtain ⟨unset, empty⟩ := Source.prepare_none_iff.mp none
      refine ⟨bytes, 1, _, session ▸ loaded, first, ends, ?_⟩
      rw [if_pos (by rw [countsEmpty, unset, empty]; rfl), ← counted]
      exact ⟨rfl, rfl⟩
    · obtain ⟨bytes, loaded, some⟩ := loaded_of_prepare (congrArg Prod.fst prepared)
      have notEmpty : ¬job.countsEmpty bytes = true := by
        intro counts
        obtain ⟨unset, empty⟩ := Bool.and_eq_true_iff.mp counts
        cases some.symm.trans
          (Source.prepare_none_iff.mpr ⟨Option.isNone_iff_eq_none.mp unset, empty⟩)
      obtain ⟨moves, left⟩ :=
        job.stage_importSource schedule source more { now with session := later }
      have sources := job.sources_importSource schedule source { now with session := later }
      rcases imported : job.importSource schedule source { now with session := later } with
        ⟨_ | _, after⟩ <;> simp only [imported] at ends left sources
      · cases ends
        cases fine
      · by_cases cancelled : after.summary.cancelled = true
        · rw [if_pos cancelled] at ends
          cases ends
          cases cancelled.symm.trans whole
        · rw [if_neg cancelled] at ends
          refine ⟨bytes, 1 + moves, after, session ▸ loaded, ?_, ends, ?_⟩
          · rw [stage_add, first, left, Stage.leave, if_neg cancelled]
          · rw [if_neg notEmpty, ← counted]
            exact sources

/-- An import that goes on to its end counts every source once. -/
theorem countsSources_importSources {paths : List String} {ended : Except FatalError Unit × Run}
    (ends : job.importSources schedule run paths = ended) (fine : ended.1 = .ok ())
    (whole : ended.2.summary.cancelled = false) :
    ∃ data, job.CountsSources schedule run paths data ended.2.summary := by
  induction paths generalizing run with
  | nil =>
      cases ends
      exact ⟨[], {
        length := rfl
        loads := nofun
        sources := rfl
        emptySources := rfl }⟩
  | cons path more ih =>
      obtain ⟨bytes, moves, after, loaded, reached, rest, counted⟩ := takes_source ends fine whole
      obtain ⟨data, counts⟩ := ih rest
      refine ⟨bytes :: data, {
        length := congrArg (· + 1) counts.length
        loads := fun index other found => ?loads
        sources := ?sources
        emptySources := ?emptySources }⟩
      case loads =>
        cases index with
        | zero =>
            cases found
            exact ⟨0, run, path, more, rfl, rfl, loaded⟩
        | succ index => exact (counts.loads index other found).behind reached
      case sources =>
        rw [counts.sources, List.countP_cons]
        split at counted
        · rename_i empty
          rw [counted.1, empty]
          rfl
        · rename_i filled
          rw [counted.1, Bool.eq_false_iff.mpr filled]
          exact Nat.add_right_comm ..
      case emptySources =>
        rw [counts.emptySources, List.countP_cons]
        split at counted
        · rename_i empty
          rw [if_pos empty, counted.2]
          exact Nat.add_right_comm ..
        · rename_i filled
          rw [if_neg filled, counted.2]
          rfl

end

/-- A job that runs to its end has loaded the sources at its paths, one after the other, and counts
each of them once.  Without a configured header its empty sources are those without any record, and
the others are its sources.  With one, no source counts as empty. -/
theorem runWith_countsSources {job : Job} {schedule : Schedule} {now : Timestamp} {output : Output}
    {session : Session} {summary : Summary} {run : Run}
    (ran : job.runWith schedule now output session = (.ok summary, run))
    (whole : summary.cancelled = false) :
    let paths := job.config.source.paths
    ∃ (start : Run) (data : List Bytes), job.Begins now output session start ∧
      data.length = paths.length ∧
      (∀ index bytes, data[index]? = some bytes →
        job.Loads schedule (.between start paths) (paths.drop index) bytes) ∧
      summary.sources + summary.emptySources = paths.length ∧
      (job.header = none →
        summary.emptySources = data.countP (Source.isEmpty job.dialect) ∧
          summary.sources = data.countP fun bytes => !Source.isEmpty job.dialect bytes) ∧
      ∀ header, job.header = some header → summary.emptySources = 0 := by
  intro paths
  obtain ⟨start, begins⟩ := begins_of_reported (.inl (congrArg Prod.fst ran))
  obtain ⟨-, fresh, -⟩ := begins.fresh
  rw [runWith_of_begins begins] at ran
  obtain ⟨same, ofOk⟩ := ended_reports (.inl (congrArg Prod.fst ran))
  have still : (job.importSources schedule start paths).2.summary.cancelled = false := by
    rw [same] at whole
    exact whole
  obtain ⟨data, counts⟩ :=
    countsSources_importSources rfl (ofOk (congrArg Prod.fst ran)) still
  have sources : summary.sources = data.countP fun bytes => !job.countsEmpty bytes := by
    rw [same]
    exact counts.sources.trans (by rw [fresh]; exact Nat.zero_add _)
  have emptySources : summary.emptySources = data.countP job.countsEmpty := by
    rw [same]
    exact counts.emptySources.trans (by rw [fresh]; exact Nat.zero_add _)
  refine ⟨start, data, begins, counts.length, counts.loads, ?_, fun unset => ?_,
    fun header given => ?_⟩
  · rw [sources, emptySources, ← counts.length, Nat.add_comm]
    simpa using (List.length_eq_countP_add_countP job.countsEmpty (l := data)).symm
  · have same : job.countsEmpty = Source.isEmpty job.dialect := by
      funext bytes
      rw [countsEmpty, unset]
      rfl
    rw [sources, emptySources, same]
    exact ⟨rfl, rfl⟩
  · rw [emptySources, List.countP_eq_zero]
    intro bytes _
    rw [countsEmpty, given]
    exact Bool.false_ne_true

/-- An empty source, one of blank lines and one of a header only. -/
theorem runWith_countsSources_unset :
    let job : Job := {
      config := { source := { paths :=
        ["memory://empty.csv", "memory://blank.csv", "memory://header.csv"] } }
      dialect := {}
      header := none }
    let session : Session := { store := { memory :=
      [(⟨["empty.csv"]⟩, []), (⟨["blank.csv"]⟩, [10, 13, 10]), (⟨["header.csv"]⟩, [97, 10])] } }
    ∃ (summary : Summary) (run : Run) (data : List Bytes),
      job.runWith {} {} (.sink {}) session = (.ok summary, run) ∧
      summary.cancelled = false ∧ summary.sources = 1 ∧ summary.emptySources = 2 ∧
      data.length = 3 ∧ data.countP (Source.isEmpty job.dialect) = 2 := by
  intro job session
  have result : (job.runWith {} {} (.sink {}) session).1 =
      .ok { sources := 1, emptySources := 2 } := by decide +kernel
  have ran : job.runWith {} {} (.sink {}) session =
      (_, (job.runWith {} {} (.sink {}) session).2) := Prod.ext result rfl
  obtain ⟨-, data, -, length, -, -, unset, -⟩ := runWith_countsSources ran rfl
  exact ⟨_, _, data, ran, rfl, rfl, rfl, length, (unset rfl).1.symm⟩

/-- With a configured header a source without any bytes is no empty one. -/
theorem runWith_emptySource_configured :
    let job : Job := {
      config := { source := { paths := ["memory://empty.csv"] } }
      dialect := {}
      header := some { names := ["a"], valid := ⟨by simp, by decide, by decide⟩ } }
    let session : Session := { store := { memory := [(⟨["empty.csv"]⟩, [])] } }
    (load "memory://empty.csv" session).1 = .ok [] ∧ Source.isEmpty job.dialect [] = true ∧
      ∃ summary run, job.runWith {} {} (.sink {}) session = (.ok summary, run) ∧
        summary.cancelled = false ∧ summary.sources = 1 ∧ summary.emptySources = 0 := by
  intro job session
  have result : (job.runWith {} {} (.sink {}) session).1 = .ok { sources := 1 } := by
    decide +kernel
  exact ⟨by decide +kernel, by decide +kernel, _, _, Prod.ext result rfl, rfl, rfl, rfl⟩

end Job

end CsvImport
