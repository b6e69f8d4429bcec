import CsvImport.Proofs.Fates
import Mathlib.Algebra.Order.BigOperators.Group.List
import Mathlib.Algebra.Order.Group.Nat
import Mathlib.Data.List.DropRight

/-!
# Releasing

However chunks are added to the reorder buffer and in whatever way drains are interleaved, the
outputs are released in index order, each once, up to the first chunk that was not added before the
last drain.
-/

namespace CsvImport

namespace ReorderBuffer

inductive Call where
  | insert (index : Nat) (output : Option ChunkOutput)
  | drain
deriving DecidableEq, Repr

namespace Call

def inserted? : Call → Option (Nat × Option ChunkOutput)
  | insert index output => some (index, output)
  | drain => none

def inserted (calls : List Call) : List (Nat × Option ChunkOutput) :=
  calls.filterMap inserted?

def upToDrain (calls : List Call) : List Call :=
  calls.rdropWhile fun call => call.inserted?.isSome

/-- A chunk that is added without an output counts as cancelled. -/
def fateOf : Option ChunkOutput → Fate
  | some output => .succeeded output
  | none => .cancelled

@[simp]
theorem output?_fateOf (output : Option ChunkOutput) : (fateOf output).output? = output := by
  cases output <;> rfl

def fates (calls : List Call) : Fates :=
  fun index => ((inserted calls).lookup index).map fateOf

def indices (calls : List Call) : List Nat :=
  (inserted calls).map Prod.fst

variable {calls : List Call} {index : Nat} {output : Option ChunkOutput}

theorem isSome_fates : (fates calls index).isSome ↔ index ∈ indices calls := by
  rw [fates, Option.isSome_map, List.lookup_isSome_iff, indices, List.mem_map]
  simp only [beq_iff_eq, eq_comm (a := index)]

theorem fates_eq_none : fates calls index = none ↔ index ∉ indices calls := by
  rw [← isSome_fates, Option.not_isSome_iff_eq_none]

theorem collect_fates (n : Nat) : (fates calls).collect Fate.output? n =
    (List.range n).filterMap fun i => ((inserted calls).lookup i).join := by
  apply List.filterMap_congr
  intro i _
  unfold fates
  rcases (inserted calls).lookup i with _ | output
  · rfl
  · exact output?_fateOf output

theorem inserted_concat_insert :
    inserted (calls ++ [insert index output]) = inserted calls ++ [(index, output)] :=
  List.filterMap_append ..

theorem inserted_concat_drain : inserted (calls ++ [drain]) = inserted calls :=
  (List.filterMap_append ..).trans (List.append_nil _)

theorem upToDrain_concat_insert : upToDrain (calls ++ [insert index output]) = upToDrain calls :=
  List.rdropWhile_concat_pos _ _ _ rfl

theorem upToDrain_concat_drain : upToDrain (calls ++ [drain]) = calls ++ [drain] :=
  List.rdropWhile_concat_neg _ _ _ Bool.false_ne_true

theorem fates_concat_insert (fresh : index ∉ indices calls) :
    fates (calls ++ [insert index output]) = (fates calls).set index (fateOf output) := by
  have absent : (inserted calls).lookup index = none :=
    Option.map_eq_none_iff.mp (fates_eq_none.mpr fresh)
  funext other
  rw [fates, inserted_concat_insert, List.lookup_append]
  by_cases same : other = index
  · subst same
    rw [absent, Fates.set_same, Option.none_or, List.lookup_cons_self]
    rfl
  · rw [Fates.set_of_ne _ same, List.lookup_cons, beq_false_of_ne same]
    exact congrArg _ (Option.or_none ..)

theorem indices_concat_insert :
    indices (calls ++ [insert index output]) = indices calls ++ [index] := by
  rw [indices, inserted_concat_insert, List.map_append]
  rfl

theorem indices_concat_drain : indices (calls ++ [drain]) = indices calls := by
  rw [indices, inserted_concat_drain]
  rfl

theorem fates_concat_drain : fates (calls ++ [drain]) = fates calls := by
  unfold fates
  rw [inserted_concat_drain]

end Call

def call (buffer : ReorderBuffer) : Call → List ChunkOutput × ReorderBuffer
  | .insert index output => ([], buffer.insert index output)
  | .drain => buffer.drain

def run (buffer : ReorderBuffer) : List Call → List ChunkOutput × ReorderBuffer
  | [] => ([], buffer)
  | call :: later =>
      let (ready, next) := buffer.call call
      let (rest, last) := next.run later
      (ready ++ rest, last)

theorem run_concat (buffer : ReorderBuffer) (calls : List Call) (call : Call) :
    buffer.run (calls ++ [call]) =
      ((buffer.run calls).1 ++ ((buffer.run calls).2.call call).1,
        ((buffer.run calls).2.call call).2) := by
  induction calls generalizing buffer with
  | nil => exact Prod.ext (List.append_nil _) rfl
  | cons first later ih =>
      rw [List.cons_append, run, run]
      simp only [ih, List.append_assoc]

/-- What calls have come to that add no chunk twice and none from `n` on. -/
structure Released (n : Nat) (calls : List Call) (released : List ChunkOutput)
    (buffer : ReorderBuffer) : Prop where
  follows : buffer.Follows (Call.fates calls) n
  released_eq : released = (Call.fates calls).collect Fate.output? buffer.next
  /-- The outputs are those of the chunks added. -/
  outputs : ((Call.fates calls).collect Fate.output? n).Perm
    ((Call.inserted calls).filterMap Prod.snd)
  /-- The chunks in front were added before the last drain. -/
  settled : ∀ i < buffer.next, i ∈ Call.indices (Call.upToDrain calls)
  /-- The chunk at the front was not. -/
  missing : buffer.next ∉ Call.indices (Call.upToDrain calls)

variable {n index : Nat} {calls : List Call} {released : List ChunkOutput}
  {buffer : ReorderBuffer}

/-- A buffer is empty when no chunk from its front on has ended. -/
theorem Follows.pending_eq_nil {fates : Fates} (follows : buffer.Follows fates n)
    (none : ∀ i, buffer.next ≤ i → fates i = none) : buffer.pending = [] := by
  apply List.eq_nil_iff_forall_not_mem.mpr
  intro entry member
  have absent : buffer.pending.lookup entry.1 = .none := by
    rw [follows.lookup]
    split
    · rfl
    · rw [none _ (Nat.le_of_not_lt ‹_›), Option.map_none]
  exact absurd rfl (bne_iff_ne.mp (List.lookup_eq_none_iff.mp absent entry member))

theorem released_nil (n : Nat) : Released n [] [] {} where
  follows := follows_empty n
  released_eq := rfl
  outputs := by simp [Fates.collect, Call.fates, Call.inserted]
  settled := fun _ before => absurd before (Nat.not_lt_zero _)
  missing := List.not_mem_nil

theorem Released.insert (before : Released n calls released buffer) (inside : index < n)
    (fresh : index ∉ Call.indices calls) (output : Option ChunkOutput) :
    Released n (calls ++ [.insert index output]) released (buffer.insert index output) := by
  obtain ⟨follows, released_eq, outputs, settled, missing⟩ := before
  have unknown : Call.fates calls index = none := Call.fates_eq_none.mpr fresh
  have added := follows.insert inside unknown (Call.fateOf output)
  rw [Call.output?_fateOf] at added
  constructor
  · rwa [Call.fates_concat_insert fresh]
  · rw [Call.fates_concat_insert fresh, released_eq]
    exact (Fates.collect_set_of_le _ _ (follows.next_le_of_none unknown) _).symm
  · rw [Call.fates_concat_insert fresh, Call.inserted_concat_insert, List.filterMap_append]
    refine (Fates.collect_set_perm _ _ inside unknown _).trans ?_
    rw [Call.output?_fateOf]
    refine (outputs.append_right _).trans (List.Perm.of_eq ?_)
    cases output <;> rfl
  · rwa [Call.upToDrain_concat_insert]
  · rwa [Call.upToDrain_concat_insert]

/-- What is at the front behind a drain has not been added at all. -/
theorem Released.drain (before : Released n calls released buffer) :
    Released n (calls ++ [.drain]) (released ++ buffer.drain.1) buffer.drain.2 := by
  obtain ⟨follows, released_eq, outputs, -, -⟩ := before
  obtain ⟨still, stopped, ready⟩ := follows.drain (Prod.eta buffer.drain).symm
  rw [← Call.fates_concat_drain] at still stopped ready released_eq
  constructor
  · exact still
  · rw [ready, released_eq]
  · rwa [Call.fates_concat_drain, Call.inserted_concat_drain]
  · intro i inside
    rw [Call.upToDrain_concat_drain]
    exact Call.isSome_fates.mp (still.passed i inside)
  · rw [Call.upToDrain_concat_drain]
    exact Call.fates_eq_none.mp stopped

/-- The induction is on the calls from the last one on: each finds what the earlier ones left. -/
theorem released_run (once : (Call.indices calls).Nodup)
    (inside : ∀ i ∈ Call.indices calls, i < n) :
    Released n calls (run {} calls).1 (run {} calls).2 := by
  induction calls using List.reverseRecOn with
  | nil => exact released_nil n
  | append_singleton calls call ih =>
      rw [run_concat]
      cases call with
      | insert index output =>
          rw [Call.indices_concat_insert] at once inside
          obtain ⟨earlier, -, apart⟩ := List.nodup_append.mp once
          have before := ih earlier fun i member => inside i (List.mem_append_left _ member)
          change Released n _ ((run {} calls).1 ++ []) _
          rw [List.append_nil]
          apply before.insert (inside index (List.mem_append_right _ (List.mem_singleton_self _)))
          intro member
          exact apart index member index (List.mem_singleton_self _) rfl
      | drain =>
          rw [Call.indices_concat_drain] at once inside
          exact (ih once inside).drain

/-- Outputs are released once and in index order, up to the first chunk that was not added before
the last drain, and the outputs that were added and not released wait.  When the first `total`
chunks, and no others, were added and a drain followed, nothing is left. -/
theorem run_inOrder {calls : List Call} (once : (Call.indices calls).Nodup) :
    let released := (run {} calls).1
    let buffer := (run {} calls).2
    let inserted := Call.inserted calls
    let settled := Call.indices (Call.upToDrain calls)
    (∃ n, (∀ i < n, i ∈ settled) ∧ n ∉ settled ∧
      released = (List.range n).filterMap fun i => (inserted.lookup i).join) ∧
    released.length + buffer.waiting = (inserted.filterMap Prod.snd).length ∧
    ∀ total, (∀ i, i ∈ Call.indices calls ↔ i < total) → (∀ i < total, i ∈ settled) →
      released.Perm (inserted.filterMap Prod.snd) ∧
        released = (List.range total).filterMap (fun i => (inserted.lookup i).join) ∧
        buffer.pending = [] ∧ buffer.waiting = 0 := by
  intro released buffer inserted settled
  have bounded : ∃ n, ∀ i ∈ Call.indices calls, i < n :=
    ⟨(Call.indices calls).sum + 1, fun i member => Nat.lt_succ_of_le (List.le_sum_of_mem member)⟩
  obtain ⟨n, inside⟩ := bounded
  have found : Released n calls released buffer := released_run once inside
  refine ⟨⟨_, found.settled, found.missing, ?_⟩, ?_, ?_⟩
  · rw [found.released_eq, Call.collect_fates]
  · rw [← found.outputs.length_eq, ← found.follows.waiting, found.released_eq]
  · intro total all later
    have found : Released total calls released buffer :=
      released_run once fun i member => (all i).mp member
    have front : buffer.next = total := by
      apply Nat.le_antisymm
      · apply Nat.le_of_not_lt
        intro beyond
        have added := Call.isSome_fates.mp (found.follows.passed total beyond)
        exact Nat.lt_irrefl total ((all total).mp added)
      · apply Nat.le_of_not_lt
        intro before
        exact found.missing (later _ before)
    have whole : released = (Call.fates calls).collect Fate.output? total :=
      front ▸ found.released_eq
    have empty : buffer.pending = [] := by
      apply found.follows.pending_eq_nil
      intro i behind
      apply Call.fates_eq_none.mpr
      intro member
      exact absurd ((all i).mp member) (Nat.not_lt.mpr (front ▸ behind))
    refine ⟨whole ▸ found.outputs, whole.trans (Call.collect_fates total), empty, ?_⟩
    rw [waiting, empty, List.countP_nil]

/-- A gap is filled late, by a chunk without output, and another stays open. -/
theorem run_inOrder_lateGap :
    let b : ChunkOutput := ⟨[98, 10], ⟨1, 0⟩⟩
    let c : ChunkOutput := ⟨[99, 10], ⟨1, 0⟩⟩
    let calls : List Call := [.insert 2 (some c), .drain, .insert 1 (some b), .insert 0 none,
      .drain, .insert 4 (some c), .drain, .insert 3 (some b)]
    (Call.indices calls).Nodup ∧ (run {} calls).1 = [b, c] ∧ (run {} calls).2.waiting = 2 := by
  intro b c calls
  have once : (Call.indices calls).Nodup := by decide
  obtain ⟨⟨n, front, missing, released⟩, waiting, -⟩ := run_inOrder once
  have settled : Call.indices (Call.upToDrain calls) = [2, 1, 0, 4] := by decide
  rw [settled] at front missing
  obtain rfl : n = 3 := by
    apply Nat.le_antisymm
    · apply Nat.le_of_not_lt
      intro beyond
      exact absurd (front 3 beyond) (by decide)
    · apply Nat.le_of_not_lt
      intro before
      have among : ∀ i < 3, i ∈ [2, 1, 0, 4] := by decide
      exact missing (among n before)
  have ready : (run {} calls).1 = [b, c] := released
  rw [ready] at waiting
  exact ⟨once, ready, Nat.add_left_cancel (n := 2) waiting⟩

end ReorderBuffer

end CsvImport
