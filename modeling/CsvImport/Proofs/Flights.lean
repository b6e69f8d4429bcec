import CsvImport.Proofs.Fates

/-!
# Flights

How the chunks of a source pass from the queue into flight and out of it.  The chunks
are numbered from zero, so that a chunk is known by its index.
-/

namespace CsvImport

namespace Source

theorem index_number (path : String) (data : Bytes) (index line : Nat)
    (ranges : List ByteRange) :
    (number path data index line ranges).map (·.id.index) =
      List.range' index ranges.length := by
  induction ranges generalizing index line with
  | nil => rfl
  | cons range later ih =>
      unfold number
      rw [List.map_cons, ih, List.length_cons, List.range'_succ]

/-- A prepared source has a header and the chunks of its plan. -/
theorem prepare_ok {d : Dialect} {configured : Option Header} {chunkSize : Nat} {path : String}
    {data : Bytes} {source : Source}
    (prepared : prepare d configured chunkSize path data = .ok (some source)) :
    ∃ found, split d configured data = .ok (some found) ∧
      source = {
        path, header := found.header, data
        chunks := number path data 0 found.dataLine
          (Chunk.plan d data found.dataStart chunkSize) } := by
  unfold prepare at prepared
  rcases parts : split d configured data with e | _ | found
  · rw [parts] at prepared
    cases prepared
  · rw [parts] at prepared
    cases prepared
  · rw [parts] at prepared
    cases prepared
    exact ⟨found, rfl, rfl⟩

end Source

namespace Chunk

/-- Whether the chunks are numbered from zero, in order. -/
def Numbered (chunks : List Chunk) : Prop :=
  chunks.map (·.id.index) = List.range chunks.length

theorem numbered_number (path : String) (data : Bytes) (line : Nat) (ranges : List ByteRange) :
    Numbered (Source.number path data 0 line ranges) := by
  have indices := Source.index_number path data 0 line ranges
  have same := congrArg List.length indices
  rw [List.length_map, List.length_range'] at same
  unfold Numbered
  rw [indices, same, List.range_eq_range']

theorem numbered_of_prepare {d : Dialect} {configured : Option Header} {chunkSize : Nat}
    {path : String} {data : Bytes} {source : Source}
    (prepared : Source.prepare d configured chunkSize path data = .ok (some source)) :
    Numbered source.chunks := by
  obtain ⟨found, _, rfl⟩ := Source.prepare_ok prepared
  exact numbered_number path data found.dataLine _

namespace Numbered

variable {chunks : List Chunk} {chunk : Chunk} {index : Nat}

theorem getElem? (numbered : Numbered chunks) (found : chunks[index]? = some chunk) :
    chunk.id.index = index := by
  have there : (chunks.map (·.id.index))[index]? = some chunk.id.index := by
    rw [List.getElem?_map, found]
    rfl
  rw [numbered, List.getElem?_range (List.getElem?_eq_some_iff.mp found).1] at there
  exact (Option.some.inj there).symm

theorem getElem?_index (numbered : Numbered chunks) (member : chunk ∈ chunks) :
    chunks[chunk.id.index]? = some chunk := by
  obtain ⟨i, found⟩ := List.mem_iff_getElem?.mp member
  rw [numbered.getElem? found, found]

theorem index_lt (numbered : Numbered chunks) (member : chunk ∈ chunks) :
    chunk.id.index < chunks.length :=
  (List.getElem?_eq_some_iff.mp (numbered.getElem?_index member)).1

theorem eq_of_index_eq (numbered : Numbered chunks) {other : Chunk} (member : chunk ∈ chunks)
    (listed : other ∈ chunks) (same : other.id.index = chunk.id.index) : other = chunk := by
  have found := numbered.getElem?_index listed
  rw [same, numbered.getElem?_index member] at found
  exact (Option.some.inj found).symm

theorem le_of_mem_drop (numbered : Numbered chunks) (member : chunk ∈ chunks.drop index) :
    index ≤ chunk.id.index := by
  obtain ⟨i, found⟩ := List.mem_iff_getElem?.mp member
  rw [List.getElem?_drop] at found
  rw [numbered.getElem? found]
  exact Nat.le_add_right ..

theorem lt_of_mem_take (numbered : Numbered chunks) (member : chunk ∈ chunks.take index) :
    chunk.id.index < index := by
  obtain ⟨i, found⟩ := List.mem_iff_getElem?.mp member
  rw [List.getElem?_take] at found
  split at found
  · rwa [numbered.getElem? found]
  · cases found

theorem nodup (numbered : Numbered chunks) : (chunks.map (·.id.index)).Nodup := by
  rw [numbered]
  exact List.nodup_range

theorem nodup_take (numbered : Numbered chunks) (n : Nat) :
    ((chunks.take n).map (·.id.index)).Nodup :=
  numbered.nodup.sublist ((List.take_sublist n chunks).map _)

theorem filterMap_range (numbered : Numbered chunks) {α : Type} (f : Nat → Option α) :
    (List.range chunks.length).filterMap f = chunks.filterMap fun chunk => f chunk.id.index := by
  rw [← numbered, List.filterMap_map]
  rfl

theorem countP_range (numbered : Numbered chunks) (test : Nat → Bool) :
    (List.range chunks.length).countP test = chunks.countP fun chunk => test chunk.id.index := by
  rw [← numbered, List.countP_map]
  rfl

end Numbered

/-- A chunk that ends is one less without a fate. -/
theorem filter_set_perm {chunks : List Chunk} (apart : (chunks.map (·.id.index)).Nodup)
    {chunk : Chunk} (member : chunk ∈ chunks) {fates : Fates}
    (fresh : fates chunk.id.index = none) (fate : Fate) :
    (chunks.filter fun other => (fates other.id.index).isNone).Perm
      (chunk :: chunks.filter fun other =>
        (fates.set chunk.id.index fate other.id.index).isNone) := by
  induction chunks with
  | nil => cases member
  | cons first later ih =>
      obtain ⟨alone, others⟩ := List.nodup_cons.mp apart
      rcases List.mem_cons.mp member with rfl | deeper
      · rw [List.filter_cons_of_pos (by rw [fresh]; rfl),
          List.filter_cons_of_neg (by rw [Fates.set_same]; exact Bool.false_ne_true)]
        refine List.Perm.of_eq (congrArg (chunk :: ·) (List.filter_congr fun other there => ?_))
        have differs : other.id.index ≠ chunk.id.index := fun same =>
          alone (List.mem_map.mpr ⟨other, there, same⟩)
        rw [Fates.set_of_ne fates differs]
      · have differs : first.id.index ≠ chunk.id.index := fun same =>
          alone (List.mem_map.mpr ⟨chunk, deeper, same.symm⟩)
        have rest := ih others deeper
        rw [List.filter_cons, List.filter_cons, Fates.set_of_ne fates differs]
        split
        · exact (rest.cons first).trans (.swap chunk first _)
        · exact rest

end Chunk

namespace Flight

/-- The queue begins behind the chunks that were started, and those of them without a
fate are in flight. -/
structure Fits (flight : Flight) (chunks : List Chunk) (fates : Fates) (started : Nat) :
    Prop where
  queued : flight.queued = chunks.drop started
  inFlight : flight.inFlight.Perm
    ((chunks.take started).filter fun chunk => (fates chunk.id.index).isNone)
  unstarted : ∀ index, started ≤ index → fates index = none

variable {flight : Flight} {chunks : List Chunk} {fates : Fates} {started : Nat}

theorem fits_start (chunks : List Chunk) :
    Fits { queued := chunks } chunks (fun _ => none) 0 where
  queued := rfl
  inFlight := List.Perm.refl _
  unstarted := fun _ _ => rfl

/-- Chunks that are started have no fate yet. -/
theorem Fits.fill (fits : flight.Fits chunks fates started) (numbered : Chunk.Numbered chunks)
    (limit : Nat) :
    (flight.fill limit).Fits chunks fates (started + (limit - flight.inFlight.length)) := by
  refine {
    queued := ?_
    inFlight := ?_
    unstarted := fun index behind => fits.unstarted index (by omega) }
  · change flight.queued.drop _ = _
    rw [fits.queued, List.drop_drop]
  · change (flight.inFlight ++ flight.queued.take _).Perm _
    rw [fits.queued, List.take_add, List.filter_append]
    have fresh : ((chunks.drop started).take (limit - flight.inFlight.length)).filter
        (fun chunk => (fates chunk.id.index).isNone) =
          (chunks.drop started).take (limit - flight.inFlight.length) := by
      apply List.filter_eq_self.mpr
      intro chunk member
      have behind := numbered.le_of_mem_drop (List.mem_of_mem_take member)
      rw [fits.unstarted _ behind]
      rfl
    rw [fresh]
    exact fits.inFlight.append_right _

theorem length_fill_le {limit : Nat} (within : flight.inFlight.length ≤ limit) :
    (flight.fill limit).inFlight.length ≤ limit := by
  change (flight.inFlight ++ flight.queued.take (limit - flight.inFlight.length)).length ≤ limit
  rw [List.length_append, List.length_take]
  omega

theorem left_fill (flight : Flight) (limit : Nat) :
    (flight.fill limit).inFlight ++ (flight.fill limit).queued =
      flight.inFlight ++ flight.queued := by
  unfold fill
  rw [List.append_assoc, List.take_append_drop]

/-- With room for a chunk, nothing is in flight only when nothing is left. -/
theorem size_eq_zero_of_fill {limit : Nat} (positive : 0 < limit)
    (none : (flight.fill limit).inFlight = []) : flight.size = 0 := by
  have empty := congrArg List.length none
  change (flight.inFlight ++ flight.queued.take (limit - flight.inFlight.length)).length = 0
    at empty
  rw [List.length_append, List.length_take] at empty
  unfold size
  omega

theorem perm_take? {pick : Nat} {chunk : Chunk} {rest : Flight}
    (taken : flight.take? pick = some (chunk, rest)) :
    flight.inFlight.Perm (chunk :: rest.inFlight) ∧ rest.queued = flight.queued ∧
      rest.reorder = flight.reorder := by
  unfold take? at taken
  obtain ⟨found, present, same⟩ := Option.map_eq_some_iff.mp taken
  cases same
  obtain ⟨bound, rfl⟩ := List.getElem?_eq_some_iff.mp present
  exact ⟨(List.getElem_cons_eraseIdx_perm bound).symm, rfl, rfl⟩

theorem Fits.take? (fits : flight.Fits chunks fates started) (numbered : Chunk.Numbered chunks)
    {pick : Nat} {chunk : Chunk} {rest : Flight}
    (taken : flight.take? pick = some (chunk, rest)) :
    chunk ∈ chunks ∧ fates chunk.id.index = none ∧
      ∀ fate, rest.Fits chunks (fates.set chunk.id.index fate) started := by
  obtain ⟨perm, queue, _⟩ := perm_take? taken
  have member := (perm.symm.trans fits.inFlight).subset List.mem_cons_self
  obtain ⟨begun, unended⟩ := List.mem_filter.mp member
  have fresh : fates chunk.id.index = none := Option.isNone_iff_eq_none.mp unended
  refine ⟨List.mem_of_mem_take begun, fresh, fun fate => ?_⟩
  refine {
    queued := queue.trans fits.queued
    inFlight := ?_
    unstarted := fun index behind => ?_ }
  · have less := Chunk.filter_set_perm (numbered.nodup_take started) begun fresh fate
    exact ((perm.symm.trans fits.inFlight).trans less).cons_inv
  · have before := numbered.lt_of_mem_take begun
    have apart : index ≠ chunk.id.index := by omega
    rw [Fates.set_of_ne fates apart]
    exact fits.unstarted index behind

/-- The chunks without a fate are those that have not ended. -/
theorem Fits.unfinished (fits : flight.Fits chunks fates started)
    (numbered : Chunk.Numbered chunks) : fates.unfinished chunks.length = flight.size := by
  have waiting : (chunks.drop started).countP (fun chunk => (fates chunk.id.index).isNone) =
      flight.queued.length := by
    rw [fits.queued]
    apply List.countP_eq_length.mpr
    intro chunk member
    rw [fits.unstarted _ (numbered.le_of_mem_drop member)]
    rfl
  have flying : (chunks.take started).countP (fun chunk => (fates chunk.id.index).isNone) =
      flight.inFlight.length := by
    rw [List.countP_eq_length_filter]
    exact fits.inFlight.length_eq.symm
  unfold Fates.unfinished size
  rw [numbered.countP_range, ← List.take_append_drop started chunks, List.countP_append, waiting,
    flying, Nat.add_comm]

end Flight

end CsvImport
