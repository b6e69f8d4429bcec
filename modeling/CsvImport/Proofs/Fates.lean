import CsvImport.Job
import CsvImport.Proofs.Gains
import CsvImport.Proofs.Reordering
import Mathlib.Data.List.Perm.Basic
import Mathlib.Logic.Function.Basic

/-!
# Fates

How the chunks of a source have ended, by index.  The reorder buffer holds what the
fates of the chunks say, and the chunks without a fate are those queued or in flight.
-/

namespace CsvImport

/-- How a chunk ended. -/
inductive Fate where
  | succeeded (output : ChunkOutput)
  | failed (failure : Failure)
  /-- It had not begun when a shutdown was asked for. -/
  | cancelled
deriving DecidableEq, Repr

namespace Fate

def output? : Fate → Option ChunkOutput
  | succeeded output => some output
  | _ => none

def failure? : Fate → Option Failure
  | failed failure => some failure
  | _ => none

def cancelled? : Fate → Option Unit
  | cancelled => some ()
  | _ => none

/-- What the end of a chunk gains at once; an output is gained when it is released. -/
def gain : Fate → Gain
  | succeeded _ => {}
  | failed failure => { failures := [failure] }
  | cancelled => { cancelled := 1, stopped := true }

theorem tail_gain (fate : Fate) : fate.gain.tail = [] := by
  cases fate <;> rfl

end Fate

/-- The fates of the chunks that have ended, by index. -/
abbrev Fates := Nat → Option Fate

namespace Fates

variable {α : Type}

/-- What is picked from the fates of the first `n` chunks, in index order. -/
def collect (fates : Fates) (pick : Fate → Option α) (n : Nat) : List α :=
  (List.range n).filterMap fun index => (fates index).bind pick

def set (fates : Fates) (index : Nat) (fate : Fate) : Fates :=
  Function.update fates index (some fate)

@[simp]
theorem set_same (fates : Fates) (index : Nat) (fate : Fate) :
    fates.set index fate index = some fate :=
  Function.update_self ..

theorem set_of_ne (fates : Fates) {index other : Nat} (apart : other ≠ index) (fate : Fate) :
    fates.set index fate other = fates other :=
  Function.update_of_ne apart ..

theorem collect_succ (fates : Fates) (pick : Fate → Option α) (n : Nat) :
    fates.collect pick (n + 1) = fates.collect pick n ++ ((fates n).bind pick).toList := by
  unfold collect
  rw [List.range_succ, List.filterMap_append, List.filterMap_cons, List.filterMap_nil]
  cases (fates n).bind pick <;> rfl

theorem mem_collect {fates : Fates} {pick : Fate → Option α} {n index : Nat} {fate : Fate}
    {picked : α} (inside : index < n) (found : fates index = some fate)
    (isPicked : pick fate = some picked) : picked ∈ fates.collect pick n :=
  List.mem_filterMap.mpr ⟨index, List.mem_range.mpr inside, by rw [found]; exact isPicked⟩

theorem collect_set_of_le (fates : Fates) (pick : Fate → Option α) {index n : Nat}
    (behind : n ≤ index) (fate : Fate) :
    (fates.set index fate).collect pick n = fates.collect pick n := by
  apply List.filterMap_congr
  intro i member
  have before := List.mem_range.mp member
  rw [set_of_ne fates (by omega)]

/-- A chunk that ends adds what is picked from its fate. -/
theorem collect_set_perm (fates : Fates) (pick : Fate → Option α) {index n : Nat}
    (inside : index < n) (fresh : fates index = none) (fate : Fate) :
    ((fates.set index fate).collect pick n).Perm
      (fates.collect pick n ++ (pick fate).toList) := by
  induction n with
  | zero => cases inside
  | succ n ih =>
      rw [collect_succ, collect_succ]
      by_cases last : index = n
      · subst last
        rw [collect_set_of_le fates pick (Nat.le_refl _), set_same, fresh]
        simp
      · rw [set_of_ne fates (Ne.symm last)]
        refine ((ih (by omega)).append_right _).trans ?_
        rw [List.append_assoc, List.append_assoc]
        exact List.perm_append_comm.append_left _

/-- How many of the first `n` chunks have not ended. -/
def unfinished (fates : Fates) (n : Nat) : Nat :=
  (List.range n).countP fun index => (fates index).isNone

/-- Every chunk has exactly one fate or none. -/
theorem total (fates : Fates) (n : Nat) :
    (fates.collect Fate.output? n).length + (fates.collect Fate.failure? n).length +
      (fates.collect Fate.cancelled? n).length + fates.unfinished n = n := by
  induction n with
  | zero => rfl
  | succ n ih =>
      have more : fates.unfinished (n + 1) =
          fates.unfinished n + if (fates n).isNone then 1 else 0 := by
        unfold unfinished
        rw [List.range_succ, List.countP_append, List.countP_singleton]
      rw [collect_succ, collect_succ, collect_succ, more]
      simp only [List.length_append]
      rcases fates n with _ | (_ | _ | _) <;>
        simp [Fate.output?, Fate.failure?, Fate.cancelled?] <;> omega

end Fates

namespace ReorderBuffer

/-- The buffer holds the outputs of the chunks that have ended from its front on. -/
structure Follows (buffer : ReorderBuffer) (fates : Fates) (n : Nat) : Prop where
  /-- Every chunk before the front has ended. -/
  passed : ∀ index, index < buffer.next → (fates index).isSome
  lookup : ∀ index, buffer.pending.lookup index =
    if index < buffer.next then none else (fates index).map Fate.output?
  distinct : buffer.pending.Distinct
  waiting : (fates.collect Fate.output? buffer.next).length + buffer.waiting =
    (fates.collect Fate.output? n).length

theorem follows_empty (n : Nat) : Follows {} (fun _ => none) n where
  passed := fun _ before => absurd before (Nat.not_lt_zero _)
  lookup := fun index => by simp
  distinct := List.nodup_nil
  waiting := by simp [Fates.collect, waiting]

variable {buffer : ReorderBuffer} {fates : Fates} {index n : Nat}

theorem Follows.next_le_of_none (follows : buffer.Follows fates n) (fresh : fates index = none) :
    buffer.next ≤ index := by
  apply Nat.le_of_not_lt
  intro before
  have ended := follows.passed index before
  rw [fresh] at ended
  cases ended

theorem Follows.insert (follows : buffer.Follows fates n) (inside : index < n)
    (fresh : fates index = none) (fate : Fate) :
    (buffer.insert index fate.output?).Follows (fates.set index fate) n := by
  have behind := follows.next_le_of_none fresh
  have absent : buffer.pending.lookup index = none := by
    rw [follows.lookup, fresh, Option.map_none, ite_self]
  refine {
    passed := fun i before => ?_
    lookup := fun i => ?_
    distinct := follows.distinct.put index fate.output?
    waiting := ?_ }
  · rw [Fates.set_of_ne fates (Nat.ne_of_lt (Nat.lt_of_lt_of_le before behind))]
    exact follows.passed i before
  · have placed := Table.lookup_put buffer.pending index i fate.output?
    refine placed.trans ?_
    by_cases same : i = index
    · subst same
      have here : ¬ i < (buffer.insert i fate.output?).next := Nat.not_lt.mpr behind
      rw [beq_self_eq_true, if_pos rfl, if_neg here, Fates.set_same]
      rfl
    · rw [beq_false_of_ne same, if_neg Bool.false_ne_true, Fates.set_of_ne fates same]
      exact follows.lookup i
  · have grown := (fates.collect_set_perm Fate.output? inside fresh fate).length_eq
    rw [waiting_insert absent, grown, List.length_append, ← follows.waiting]
    change ((fates.set index fate).collect Fate.output? buffer.next).length + _ = _
    rw [Fates.collect_set_of_le fates Fate.output? behind, Nat.add_assoc]

/-- Draining releases the outputs up to the first chunk that has not ended. -/
theorem Follows.drain (follows : buffer.Follows fates n) {ready : List ChunkOutput}
    {after : ReorderBuffer} (drained : buffer.drain = (ready, after)) :
    after.Follows fates n ∧ fates after.next = none ∧
      fates.collect Fate.output? after.next =
        fates.collect Fate.output? buffer.next ++ ready := by
  have drains := buffer.drains_drain
  rw [drained] at drains
  obtain ⟨le_next, finished, stopped, ready_eq, lookup_eq, distinct, waiting_eq⟩ := drains
  simp only at *
  have held : ∀ i, buffer.next ≤ i → buffer.pending.lookup i = (fates i).map Fate.output? :=
    fun i behind => by rw [follows.lookup, if_neg (Nat.not_lt.mpr behind)]
  have released : fates.collect Fate.output? after.next =
      fates.collect Fate.output? buffer.next ++ ready := by
    have front : List.range after.next =
        List.range buffer.next ++ List.range' buffer.next (after.next - buffer.next) := by
      have parts := List.range'_append_1 (s := 0) (m := buffer.next)
        (n := after.next - buffer.next)
      rw [Nat.zero_add, Nat.add_sub_cancel' le_next] at parts
      rw [List.range_eq_range', List.range_eq_range', parts]
    unfold Fates.collect
    rw [front, List.filterMap_append, ready_eq]
    congr 1
    apply List.filterMap_congr
    intro i member
    rw [held i (List.mem_range'_1.mp member).1]
    cases fates i <;> rfl
  refine ⟨?_, ?_, released⟩
  · refine {
      passed := fun i before => ?_
      lookup := fun i => ?_
      distinct := distinct follows.distinct
      waiting := ?_ }
    · by_cases old : i < buffer.next
      · exact follows.passed i old
      · have there := finished i (Nat.le_of_not_lt old) before
        rw [held i (Nat.le_of_not_lt old), Option.isSome_map] at there
        exact there
    · rw [lookup_eq, follows.lookup]
      by_cases old : i < buffer.next
      · simp [old, Nat.lt_of_lt_of_le old le_next]
      · simp [old, Nat.le_of_not_lt old]
    · have kept := waiting_eq follows.distinct
      rw [released, List.length_append, ← follows.waiting]
      omega
  · rw [held _ le_next] at stopped
    exact Option.map_eq_none_iff.mp stopped

end ReorderBuffer

end CsvImport
