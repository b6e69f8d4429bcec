import CsvImport.ReorderBuffer
import Mathlib.Data.List.Nodup

/-!
# Reordering

What draining the reorder buffer releases: the outputs of the finished chunks without
a gap behind the last one released.  Outputs that are not released wait on.
-/

namespace CsvImport

namespace Table

section

variable {κ ν : Type} [BEq κ] [LawfulBEq κ] {table : Table κ ν} {key : κ}

def Distinct {κ ν : Type} (table : Table κ ν) : Prop :=
  (table.map Prod.fst).Nodup

omit [LawfulBEq κ] in
theorem Distinct.remove (distinct : table.Distinct) (key : κ) : (table.remove key).Distinct :=
  distinct.sublist (List.filter_sublist.map Prod.fst)

theorem fst_ne_of_mem_remove {entry : κ × ν} (member : entry ∈ table.remove key) :
    entry.1 ≠ key := by
  simpa using (List.mem_filter.mp member).2

theorem Distinct.put (distinct : table.Distinct) (key : κ) (value : ν) :
    (table.put key value).Distinct := by
  refine List.nodup_cons.mpr ⟨fun member => ?_, distinct.remove key⟩
  obtain ⟨entry, present, same⟩ := List.mem_map.mp member
  exact fst_ne_of_mem_remove present same

theorem remove_of_lookup_eq_none (absent : table.lookup key = none) :
    table.remove key = table := by
  apply List.filter_eq_self.mpr
  intro entry member
  have other : key ≠ entry.1 := by simpa using List.lookup_eq_none_iff.mp absent entry member
  exact bne_iff_ne.mpr other.symm

/-- A key that stands once takes its own entry along. -/
theorem countP_remove {value : ν} (distinct : table.Distinct)
    (found : table.lookup key = some value) (test : κ × ν → Bool) :
    (table.remove key).countP test + (if test (key, value) then 1 else 0) =
      table.countP test := by
  induction table with
  | nil => cases found
  | cons entry rest ih =>
      obtain ⟨name, held⟩ := entry
      obtain ⟨apart, others⟩ := List.nodup_cons.mp distinct
      rw [List.lookup_cons] at found
      by_cases same : key = name
      · subst same
        rw [beq_self_eq_true] at found
        obtain rfl : held = value := Option.some.inj found
        have absent : rest.lookup key = none := by
          apply List.lookup_eq_none_iff.mpr
          intro entry member
          exact bne_iff_ne.mpr fun same => apart (List.mem_map.mpr ⟨entry, member, same.symm⟩)
        have gone : Table.remove ((key, held) :: rest) key = rest := by
          have := remove_of_lookup_eq_none absent
          unfold Table.remove at this ⊢
          rw [List.filter_cons_of_neg (by simp), this]
        rw [gone, List.countP_cons]
      · have kept : Table.remove ((name, held) :: rest) key =
            (name, held) :: Table.remove rest key := by
          unfold Table.remove
          exact List.filter_cons_of_pos (bne_iff_ne.mpr (Ne.symm same))
        have other : (key == name) = false := by simpa using same
        rw [other] at found
        rw [kept, List.countP_cons, List.countP_cons, ← ih others found]
        omega

end

end Table

namespace ReorderBuffer

/-- What draining a buffer does: the outputs `ready` are released. -/
structure Drains (before : ReorderBuffer) (ready : List ChunkOutput) (after : ReorderBuffer) :
    Prop where
  le_next : before.next ≤ after.next
  /-- Every chunk up to the new front has finished. -/
  finished : ∀ i, before.next ≤ i → i < after.next → (before.pending.lookup i).isSome
  /-- The chunk at the new front has not. -/
  stopped : before.pending.lookup after.next = none
  ready_eq : ready =
    (List.range' before.next (after.next - before.next)).filterMap fun i =>
      (before.pending.lookup i).join
  lookup_eq : ∀ i, after.pending.lookup i =
    if before.next ≤ i ∧ i < after.next then none else before.pending.lookup i
  distinct : before.pending.Distinct → after.pending.Distinct
  waiting_eq : before.pending.Distinct → after.waiting + ready.length = before.waiting

theorem drains_drain (buffer : ReorderBuffer) : buffer.Drains buffer.drain.1 buffer.drain.2 := by
  fun_induction drain buffer with
  | case1 buffer absent =>
      exact {
        le_next := Nat.le_refl _
        finished := fun i low high => absurd (Nat.lt_of_le_of_lt low high) (Nat.lt_irrefl _)
        stopped := absent
        ready_eq := by simp
        lookup_eq := fun i => by
          rw [if_neg (fun both => absurd (Nat.lt_of_le_of_lt both.1 both.2) (Nat.lt_irrefl _))]
        distinct := id
        waiting_eq := fun _ => rfl }
  | case2 buffer output found ready after drained ih =>
      rw [drained] at ih
      have other : ∀ i, i ≠ buffer.next →
          (buffer.pending.remove buffer.next).lookup i = buffer.pending.lookup i := by
        intro i apart
        rw [Table.lookup_remove]
        simp [apart]
      have later : buffer.next + 1 ≤ after.next := ih.le_next
      change buffer.Drains (output.toList ++ ready) after
      refine {
        le_next := by omega
        finished := fun i low high => ?_
        stopped := by rw [← other _ (by omega)]; exact ih.stopped
        ready_eq := ?_
        lookup_eq := fun i => ?_
        distinct := fun distinct => ih.distinct (distinct.remove _)
        waiting_eq := fun distinct => ?_ }
      · by_cases first : i = buffer.next
        · simp [first, found]
        · rw [← other i first]
          exact ih.finished i (by simp only; omega) high
      · have split : after.next - buffer.next = (after.next - (buffer.next + 1)) + 1 := by omega
        rw [split, List.range'_succ]
        have rest : ready =
            (List.range' (buffer.next + 1) (after.next - (buffer.next + 1))).filterMap fun i =>
              (buffer.pending.lookup i).join := by
          refine ih.ready_eq.trans ?_
          apply List.filterMap_congr
          intro i member
          have inside := List.mem_range'_1.mp member
          simp only at inside
          rw [other i (by omega)]
        cases output <;> simp [found, ← rest]
      · have rest := ih.lookup_eq i
        simp only at rest
        rw [rest]
        by_cases first : i = buffer.next
        · subst first
          rw [if_neg (by omega), if_pos (by omega), Table.lookup_remove, beq_self_eq_true]
          rfl
        · rw [other i first]
          exact if_congr (by omega) rfl rfl
      · have rest := ih.waiting_eq (distinct.remove _)
        have gone := Table.countP_remove distinct found fun entry => entry.2.isSome
        unfold waiting at rest ⊢
        cases output <;> simp_all; omega

/-- An output that is added waits, unless its chunk has none. -/
theorem waiting_insert {buffer : ReorderBuffer} {index : Nat}
    (absent : buffer.pending.lookup index = none) (output : Option ChunkOutput) :
    (buffer.insert index output).waiting = buffer.waiting + output.toList.length := by
  unfold waiting insert Table.put
  simp only [Table.remove_of_lookup_eq_none absent, List.countP_cons]
  cases output <;> simp

end ReorderBuffer

end CsvImport
