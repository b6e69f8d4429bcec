import CsvImport.Proofs.Steps

/-!
# Importing a source

Between two steps of an import every chunk of the source is accounted for: its fate
says where it is, and what the job has gained is what the fates say.
-/

namespace CsvImport

/-- The gain is that of the fates of `n` chunks, the outputs before `next` released. -/
structure Gain.Tallies (gain : Gain) (fates : Fates) (n next : Nat) : Prop where
  outputs : gain.outputs = fates.collect Fate.output? next
  whole : gain.tail = []
  failures : gain.failures.Perm (fates.collect Fate.failure? n)
  cancelled : gain.cancelled = (fates.collect Fate.cancelled? n).length
  stopped : 0 < gain.cancelled → gain.stopped = true

theorem Gain.Tallies.set {gain : Gain} {fates : Fates} {index n next : Nat}
    (tallies : gain.Tallies fates n next) (inside : index < n) (behind : next ≤ index)
    (fresh : fates index = none) (fate : Fate) :
    (gain.andThen fate.gain).Tallies (fates.set index fate) n next := by
  have failures := fates.collect_set_perm Fate.failure? inside fresh fate
  have cancelled := (fates.collect_set_perm Fate.cancelled? inside fresh fate).length_eq
  have outputs := fates.collect_set_of_le Fate.output? behind fate
  rw [List.length_append, ← tallies.cancelled] at cancelled
  refine {
    outputs := ?_
    whole := fate.tail_gain
    failures := ?_
    cancelled := ?_
    stopped := ?_ }
  · rw [outputs, ← tallies.outputs]
    cases fate <;> exact List.append_nil _
  · refine List.Perm.trans ?_ failures.symm
    cases fate <;> exact tallies.failures.append_right _
  · rw [cancelled]
    cases fate <;> rfl
  · intro some
    cases fate with
    | cancelled => exact Bool.or_true _
    | succeeded => exact (Bool.or_false _).trans (tallies.stopped some)
    | failed => exact (Bool.or_false _).trans (tallies.stopped some)

/-- Unless chunks were given up, none was cancelled. -/
theorem Gain.Tallies.not_cancelled {gain : Gain} {fates : Fates} {n next index : Nat}
    (tallies : gain.Tallies fates n next) (calm : gain.stopped = false) (inside : index < n) :
    fates index ≠ some .cancelled := by
  intro found
  have listed : () ∈ fates.collect Fate.cancelled? n := Fates.mem_collect inside found rfl
  have some := List.length_pos_of_mem listed
  rw [← tallies.cancelled] at some
  rw [tallies.stopped some] at calm
  cases calm

theorem Gain.Tallies.outputs_front {gain : Gain} {fates : Fates} {n next : Nat}
    (tallies : gain.Tallies fates n next) : gain.outputs <+: fates.collect Fate.output? next :=
  ⟨[], by rw [List.append_nil, tallies.outputs]⟩

theorem Gain.Tallies.release {gain : Gain} {fates : Fates} {n next later : Nat}
    (tallies : gain.Tallies fates n next) {ready : List ChunkOutput}
    (released : fates.collect Fate.output? later = fates.collect Fate.output? next ++ ready) :
    (gain.andThen { outputs := ready }).Tallies fates n later where
  outputs := by rw [released, ← tallies.outputs]; rfl
  whole := rfl
  failures := by
    change (gain.failures ++ []).Perm _
    rw [List.append_nil]
    exact tallies.failures
  cancelled := tallies.cancelled
  stopped some := (Bool.or_false _).trans (tallies.stopped some)

namespace Job

/-- The chunks that have ended have ended as their ingestions did. -/
def Agrees (job : Job) (source : Source) (fates : Fates) : Prop :=
  ∀ chunk ∈ source.chunks, ∀ fate, fates chunk.id.index = some fate → job.Ends source chunk fate

/-- Between two steps: what is in flight and queued has not ended, the reorder buffer
follows the fates of the others, and their gain is tallied. -/
structure Accounts (job : Job) (source : Source) (fates : Fates) (flight : Flight)
    (gain : Gain) : Prop where
  fits : ∃ started, flight.Fits source.chunks fates started
  within : flight.inFlight.length ≤ job.config.source.maxConcurrent
  beyond : ∀ index, source.chunks.length ≤ index → fates index = none
  agrees : job.Agrees source fates
  follows : flight.reorder.Follows fates source.chunks.length
  /-- The chunk at the front of the buffer has not ended. -/
  front : fates flight.reorder.next = none
  tallies : gain.Tallies fates source.chunks.length flight.reorder.next

/-- While a chunk ends, all the others are accounted for. -/
structure Landing (job : Job) (source : Source) (fates : Fates) (chunk : Chunk)
    (flight : Flight) (gain : Gain) : Prop where
  member : chunk ∈ source.chunks
  fresh : fates chunk.id.index = none
  fits : ∀ fate, ∃ started, flight.Fits source.chunks (fates.set chunk.id.index fate) started
  within : flight.inFlight.length ≤ job.config.source.maxConcurrent
  beyond : ∀ index, source.chunks.length ≤ index → fates index = none
  agrees : job.Agrees source fates
  follows : flight.reorder.Follows fates source.chunks.length
  tallies : gain.Tallies fates source.chunks.length flight.reorder.next

/-- What an import that has ended leaves behind, when the chunks before `next` have ended. -/
structure Settles (job : Job) (source : Source) (fates : Fates) (next : Nat)
    (result : Except FatalError Unit) (gain : Gain) : Prop where
  agrees : job.Agrees source fates
  within : next ≤ source.chunks.length
  passed : ∀ index, index < next → (fates index).isSome
  /-- Unless a shutdown was asked for, every chunk that has ended has ended by itself. -/
  byItself : gain.stopped = false → ∀ index, index < source.chunks.length →
    fates index ≠ some .cancelled
  /-- The outputs written are the first ones in index order. -/
  outputs : gain.outputs <+: fates.collect Fate.output? next
  /-- A part of an output is written only if writing it failed. -/
  tail : gain.tail = [] ∨ ∃ output cause,
    result = .error (.outputWrite job.config.output.path (some cause)) ∧
      gain.outputs ++ [output] <+: fates.collect Fate.output? next ∧
      gain.tail <+: output.bytes ∧ gain.tail ≠ output.bytes
  failures : gain.failures.Perm (fates.collect Fate.failure? source.chunks.length)
  stopped : 0 < gain.cancelled → gain.stopped = true
  /-- No chunk is lost or counted twice. -/
  total : 0 < job.config.source.maxConcurrent → result = .ok () →
    gain.outputs.length + gain.failures.length + gain.cancelled = source.chunks.length
  /-- Unless a shutdown was asked for, all chunks have ended and all outputs are written. -/
  complete : 0 < job.config.source.maxConcurrent → result = .ok () → gain.stopped = false →
    next = source.chunks.length ∧ gain.outputs = fates.collect Fate.output? next

section

variable {job : Job} {source : Source} {fates : Fates} {gain : Gain}
  {flight : Flight}

theorem accounts_start (job : Job) (source : Source) :
    job.Accounts source (fun _ => none) { queued := source.chunks } {} where
  fits := ⟨0, Flight.fits_start source.chunks⟩
  within := Nat.zero_le _
  beyond := fun _ _ => rfl
  agrees := fun _ _ _ found => by cases found
  follows := ReorderBuffer.follows_empty _
  front := rfl
  tallies := {
    outputs := rfl
    whole := rfl
    failures := by simp [Fates.collect]
    cancelled := by simp [Fates.collect]
    stopped := fun some => absurd some (Nat.lt_irrefl 0) }

theorem Accounts.fill (accounts : job.Accounts source fates flight gain)
    (numbered : Chunk.Numbered source.chunks) :
    job.Accounts source fates (flight.fill job.config.source.maxConcurrent) gain :=
  { accounts with
    fits := by
      obtain ⟨started, fits⟩ := accounts.fits
      exact ⟨_, fits.fill numbered job.config.source.maxConcurrent⟩
    within := Flight.length_fill_le accounts.within }

theorem Accounts.take? (accounts : job.Accounts source fates flight gain)
    (numbered : Chunk.Numbered source.chunks) {pick : Nat} {chunk : Chunk} {rest : Flight}
    (taken : flight.take? pick = some (chunk, rest)) :
    job.Landing source fates chunk rest gain := by
  obtain ⟨started, fits⟩ := accounts.fits
  obtain ⟨member, fresh, still⟩ := fits.take? numbered taken
  obtain ⟨perm, _, reorder⟩ := Flight.perm_take? taken
  have longer := perm.length_eq
  have within := accounts.within
  rw [List.length_cons] at longer
  exact {
    member, fresh
    fits := fun fate => ⟨started, still fate⟩
    within := by omega
    beyond := accounts.beyond
    agrees := accounts.agrees
    follows := reorder ▸ accounts.follows
    tallies := reorder ▸ accounts.tallies }

theorem Accounts.next_le (accounts : job.Accounts source fates flight gain) :
    flight.reorder.next ≤ source.chunks.length :=
  accounts.follows.next_le_of_none (accounts.beyond _ (Nat.le_refl _))

/-! ## A chunk ends -/

section

variable {chunk : Chunk} {fate : Fate}

theorem Landing.agrees_set (landing : job.Landing source fates chunk flight gain)
    (numbered : Chunk.Numbered source.chunks) (ended : job.Ends source chunk fate) :
    job.Agrees source (fates.set chunk.id.index fate) := by
  intro other listed found there
  by_cases same : other.id.index = chunk.id.index
  · rw [same, Fates.set_same] at there
    cases there
    rw [numbered.eq_of_index_eq landing.member listed same]
    exact ended
  · rw [Fates.set_of_ne fates same] at there
    exact landing.agrees other listed found there

theorem Landing.beyond_set (landing : job.Landing source fates chunk flight gain)
    (numbered : Chunk.Numbered source.chunks) (fate : Fate) :
    ∀ index, source.chunks.length ≤ index → fates.set chunk.id.index fate index = none := by
  intro index behind
  have inside := numbered.index_lt landing.member
  rw [Fates.set_of_ne fates (by omega)]
  exact landing.beyond index behind

theorem Landing.tallies_set (landing : job.Landing source fates chunk flight gain)
    (numbered : Chunk.Numbered source.chunks) (fate : Fate) :
    (gain.andThen fate.gain).Tallies (fates.set chunk.id.index fate) source.chunks.length
      flight.reorder.next :=
  landing.tallies.set (numbered.index_lt landing.member)
    (landing.follows.next_le_of_none landing.fresh) landing.fresh fate

/-- A chunk that is one failure too many ends the import. -/
theorem Landing.settles (landing : job.Landing source fates chunk flight gain)
    (numbered : Chunk.Numbered source.chunks) (ended : job.Ends source chunk fate)
    (e : FatalError) :
    job.Settles source (fates.set chunk.id.index fate) flight.reorder.next (.error e)
      (gain.andThen fate.gain) where
  agrees := landing.agrees_set numbered ended
  within := landing.follows.next_le_of_none (landing.beyond _ (Nat.le_refl _))
  passed :=
    (landing.follows.insert (numbered.index_lt landing.member) landing.fresh fate).passed
  byItself := fun calm _ => (landing.tallies_set numbered fate).not_cancelled calm
  outputs := (landing.tallies_set numbered fate).outputs_front
  tail := .inl (landing.tallies_set numbered fate).whole
  failures := (landing.tallies_set numbered fate).failures
  stopped := (landing.tallies_set numbered fate).stopped
  total := fun _ fine => by cases fine
  complete := fun _ fine => by cases fine

/-- After the output of a chunk was released, either everything is accounted for again, or
an output could not be written and the import has ended. -/
theorem Landing.release (landing : job.Landing source fates chunk flight gain)
    (numbered : Chunk.Numbered source.chunks) (ended : job.Ends source chunk fate)
    {ready : List ChunkOutput} {reorder : ReorderBuffer}
    (drained : (flight.reorder.insert chunk.id.index fate.output?).drain = (ready, reorder))
    {result : Except FatalError Unit} {written : Gain}
    (writes : Run.Writes job.config.output.path ready result written) :
    result = .ok () ∧
        job.Accounts source (fates.set chunk.id.index fate) { flight with reorder }
          ((gain.andThen fate.gain).andThen written) ∨
      (∃ e, result = .error e) ∧
        ∃ next, job.Settles source (fates.set chunk.id.index fate) next result
          ((gain.andThen fate.gain).andThen written) := by
  have inserted := landing.follows.insert (numbered.index_lt landing.member) landing.fresh fate
  obtain ⟨follows, front, released⟩ := inserted.drain drained
  have tallies := landing.tallies_set numbered fate
  have beyond := landing.beyond_set numbered fate
  cases writes with
  | all =>
      exact .inl ⟨rfl, {
        fits := by
          obtain ⟨started, fits⟩ := landing.fits fate
          exact ⟨started, fits.queued, fits.inFlight, fits.unstarted⟩
        within := landing.within
        beyond, follows, front
        agrees := landing.agrees_set numbered ended
        tallies := tallies.release released }⟩
  | @cut done later next tail cause order part short =>
      have outputs : ((gain.andThen fate.gain).andThen { outputs := done, tail }).outputs ++
          next :: later = (fates.set chunk.id.index fate).collect Fate.output? reorder.next := by
        rw [released, order]
        change (gain.andThen fate.gain).outputs ++ done ++ _ = _
        rw [tallies.outputs, List.append_assoc]
        rfl
      refine .inr ⟨⟨_, rfl⟩, reorder.next, {
        agrees := landing.agrees_set numbered ended
        within := follows.next_le_of_none (beyond _ (Nat.le_refl _))
        passed := follows.passed
        byItself := fun calm _ => tallies.not_cancelled ((Bool.or_false _).symm.trans calm)
        outputs := outputs ▸ List.prefix_append ..
        tail := .inr ⟨next, cause, rfl, ?_, part, short⟩
        failures := ?_
        stopped := fun some => (Bool.or_false _).trans (tallies.stopped some)
        total := fun _ fine => by cases fine
        complete := fun _ fine => by cases fine }⟩
      · rw [← outputs, List.append_cons _ next later]
        exact List.prefix_append ..
      · change ((gain.andThen fate.gain).failures ++ []).Perm _
        rw [List.append_nil]
        exact tallies.failures

end

/-! ## Steps and whole imports -/

theorem Accounts.settles_abandon (accounts : job.Accounts source fates flight gain)
    (numbered : Chunk.Numbered source.chunks) :
    job.Settles source fates flight.reorder.next (.ok ())
      (gain.andThen { cancelled := flight.abandoned, stopped := true }) where
  agrees := accounts.agrees
  within := accounts.next_le
  passed := accounts.follows.passed
  byItself := fun calm => by
    have never := (Bool.or_true gain.stopped).symm.trans calm
    cases never
  outputs := by
    change gain.outputs ++ [] <+: _
    rw [List.append_nil]
    exact accounts.tallies.outputs_front
  tail := .inl rfl
  failures := by
    change (gain.failures ++ []).Perm _
    rw [List.append_nil]
    exact accounts.tallies.failures
  stopped := fun _ => Bool.or_true _
  total := fun _ _ => by
    obtain ⟨started, fits⟩ := accounts.fits
    have left := fits.unfinished numbered
    have all := fates.total source.chunks.length
    have waiting := accounts.follows.waiting
    have failures := accounts.tallies.failures.length_eq
    have cancelled := accounts.tallies.cancelled
    have outputs := congrArg List.length accounts.tallies.outputs
    change (gain.outputs ++ []).length + (gain.failures ++ []).length +
      (gain.cancelled + flight.abandoned) = _
    rw [List.append_nil, List.append_nil]
    unfold Flight.abandoned
    unfold Flight.size at left
    omega
  complete := fun _ _ calm => by
    have never := (Bool.or_true gain.stopped).symm.trans calm
    cases never

/-- What an import settles that has nothing left in flight. -/
theorem Accounts.settles_idle (accounts : job.Accounts source fates flight gain)
    (numbered : Chunk.Numbered source.chunks)
    (none : (flight.fill job.config.source.maxConcurrent).inFlight = []) :
    job.Settles source fates flight.reorder.next (.ok ()) gain := by
  obtain ⟨started, fits⟩ := accounts.fits
  have left := fits.unfinished numbered
  -- The buffer stops in front of a chunk that has not ended, and there is none.
  have all : 0 < job.config.source.maxConcurrent →
      flight.reorder.next = source.chunks.length := by
    intro positive
    rw [Flight.size_eq_zero_of_fill positive none] at left
    refine Nat.le_antisymm accounts.next_le (Nat.le_of_not_lt fun short => ?_)
    have each := List.countP_eq_zero.mp left _ (List.mem_range.mpr short)
    rw [accounts.front] at each
    exact each rfl
  exact {
    agrees := accounts.agrees
    within := accounts.next_le
    passed := accounts.follows.passed
    byItself := fun calm _ => accounts.tallies.not_cancelled calm
    outputs := accounts.tallies.outputs_front
    tail := .inl accounts.tallies.whole
    failures := accounts.tallies.failures
    stopped := accounts.tallies.stopped
    total := fun positive _ => by
      have total := fates.total source.chunks.length
      rw [left, Flight.size_eq_zero_of_fill positive none, ← all positive,
        ← accounts.tallies.outputs, all positive, ← accounts.tallies.cancelled,
        ← accounts.tallies.failures.length_eq] at total
      exact total
    complete := fun positive _ _ => ⟨all positive, accounts.tallies.outputs⟩ }

/-- What a step makes of the accounts before it. -/
def Step.Accounted (job : Job) (source : Source) (run : Run) (gain : Gain) : Step → Prop
  | .again after left => ∃ fates more, run.Gains after more ∧
      job.Accounts source fates left (gain.andThen more)
  | .done result after => ∃ fates next more, run.Gains after more ∧
      job.Settles source fates next result (gain.andThen more)

/-- However a chunk ends, it is accounted for. -/
theorem Landing.finish (landing : job.Landing source fates chunk flight gain)
    (numbered : Chunk.Numbered source.chunks) {turn : Turn} {run after : Run} {left : Flight}
    {result : Except FatalError Unit}
    (finished : job.finish source turn chunk run flight = (result, after, left)) :
    ∃ fates more, run.Gains after more ∧
      (result = .ok () ∧ job.Accounts source fates left (gain.andThen more) ∨
        (∃ e, result = .error e) ∧
          ∃ next, job.Settles source fates next result (gain.andThen more)) := by
  obtain ⟨fate, ended, ends, gains, _, released | ⟨excess, _, _, stopped⟩⟩ :=
    job.finish_cases source turn chunk run flight
  · rcases drained : (flight.reorder.insert chunk.id.index fate.output?).drain with
      ⟨ready, reorder⟩
    obtain ⟨same, written, wrote, writes⟩ :=
      job.release_cases ended flight chunk.id.index fate.output? drained
    rw [← released, finished] at same wrote writes
    cases same
    refine ⟨fates.set chunk.id.index fate, _, gains.trans fate.tail_gain wrote, ?_⟩
    rw [← Gain.andThen_assoc]
    exact landing.release numbered ends drained writes
  · rw [finished] at stopped
    cases stopped
    refine ⟨fates.set chunk.id.index fate, _, gains, .inr ⟨⟨_, rfl⟩, flight.reorder.next, ?_⟩⟩
    exact landing.settles numbered ends _

/-- A step keeps the accounts, or ends the import with them. -/
theorem Accounts.advance (accounts : job.Accounts source fates flight gain)
    (numbered : Chunk.Numbered source.chunks) (schedule : Schedule) (run : Run) :
    (job.advance schedule source run flight).Accounted job source run gain := by
  have advances := job.advances_advance schedule source run flight
  generalize job.advance schedule source run flight = step at advances
  cases advances with
  | @leave asked left asks stopping same =>
      have abandoned := asks.gains.trans rfl (gains_abandon source asked left)
      rw [Gain.empty_andThen] at abandoned
      refine ⟨fates, left.reorder.next, _, abandoned, ?_⟩
      rcases same with rfl | rfl
      · exact accounts.settles_abandon numbered
      · exact (accounts.fill numbered).settles_abandon numbered
  | idle asks none =>
      refine ⟨fates, flight.reorder.next, {}, asks.gains, ?_⟩
      rw [Gain.andThen_empty accounts.tallies.whole]
      exact accounts.settles_idle numbered none
  | again asks taken finished =>
      have landing := (accounts.fill numbered).take? numbered taken
      obtain ⟨fates, more, gains, ⟨_, still⟩ | ⟨⟨_, failed⟩, _⟩⟩ :=
        landing.finish numbered finished
      · have both := asks.gains.trans rfl gains
        rw [Gain.empty_andThen] at both
        exact ⟨fates, more, both, still⟩
      · cases failed
  | fail asks taken finished =>
      have landing := (accounts.fill numbered).take? numbered taken
      obtain ⟨fates, more, gains, ⟨fine, _⟩ | ⟨_, next, settles⟩⟩ :=
        landing.finish numbered finished
      · cases fine
      · have both := asks.gains.trans rfl gains
        rw [Gain.empty_andThen] at both
        exact ⟨fates, next, more, both, settles⟩

/-- An import that begins with the accounts of a flight settles them. -/
theorem Accounts.importChunks (accounts : job.Accounts source fates flight gain)
    (numbered : Chunk.Numbered source.chunks) (schedule : Schedule) (run : Run) :
    ∃ fates next more, run.Gains (job.importChunks schedule source run flight).2 more ∧
      job.Settles source fates next (job.importChunks schedule source run flight).1
        (gain.andThen more) := by
  fun_induction Job.importChunks job schedule source run flight generalizing fates gain with
  | case1 run flight result after step =>
      have accounted := accounts.advance numbered schedule run
      rw [step] at accounted
      exact accounted
  | case2 run flight after left step ih =>
      have accounted := accounts.advance numbered schedule run
      rw [step] at accounted
      obtain ⟨fates, more, gains, still⟩ := accounted
      obtain ⟨fates, next, rest, later, settles⟩ := ih still
      refine ⟨fates, next, _, gains.trans still.tallies.whole later, ?_⟩
      rw [← Gain.andThen_assoc]
      exact settles

theorem Settles.whole {next : Nat} (settles : job.Settles source fates next (.ok ()) gain) :
    gain.tail = [] := by
  rcases settles.tail with whole | ⟨_, _, failed, _⟩
  · exact whole
  · cases failed

theorem settles_importSource (job : Job) (schedule : Schedule) {source : Source}
    (numbered : Chunk.Numbered source.chunks) (run : Run) :
    ∃ fates next gain, run.Gains (job.importSource schedule source run).2 gain ∧
      job.Settles source fates next (job.importSource schedule source run).1 gain := by
  have opened := run.gains_sources (run.summary.sources + 1) run.summary.emptySources
  have start := job.accounts_start source
  unfold importSource
  simp only
  split
  · rename_i empty
    have told := opened.trans rfl (Run.gains_tell _ .info
      (source.path ++ ": no data rows after the header"))
    have none : (({ queued := source.chunks } : Flight).fill
        job.config.source.maxConcurrent).inFlight = [] := by
      rw [List.isEmpty_iff.mp empty]
      exact List.take_nil
    exact ⟨_, _, _, told, start.settles_idle numbered none⟩
  · obtain ⟨fates, next, gain, gains, settles⟩ := start.importChunks numbered schedule
      { run with summary := { run.summary with sources := run.summary.sources + 1 } }
    rw [Gain.empty_andThen] at settles
    have both := opened.trans rfl gains
    rw [Gain.empty_andThen] at both
    split
    · rename_i e after ended
      rw [ended] at both settles
      exact ⟨fates, next, gain, both, settles⟩
    · rename_i after ended
      rw [ended] at both settles
      have told := both.trans settles.whole (Run.gains_tell _ .info
        (sourceNotice source run.summary.counts after.summary.counts))
      rw [Gain.andThen_empty settles.whole] at told
      exact ⟨fates, next, gain, told, settles⟩

end

end Job

end CsvImport
