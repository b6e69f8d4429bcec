import CsvImport.Chunk
import CsvImport.Proofs.Extents

/-!
# The chunk plan

The planner goes through its input byte by byte, the decoder line by line.  With an
accepted dialect both see the same extents, and the plan is a grouping of them: a
range is closed by the first extent with which it reaches the target.
-/

namespace CsvImport

theorem Dialect.accepted_default : Dialect.Accepted {} := by
  constructor <;> decide

namespace FieldState

/-- Outside quotes, only the quote byte opens a quote. -/
theorem next_ne_quoted {d : Dialect} {state : FieldState} {b : UInt8}
    (outside : state ≠ .quoted) (other : b ≠ d.quote) : state.next d b ≠ .quoted := by
  cases state with
  | quoted => exact absurd rfl outside
  | fieldStart => by_cases ends : b = d.delimiter <;> simp [next, ends, other]
  | unquoted => by_cases ends : b = d.delimiter <;> simp [next, ends]
  | quoteInQuoted => by_cases ends : b = d.delimiter <;> simp [next, ends, other]

theorem next_quoted {d : Dialect} {b : UInt8} (other : b ≠ d.quote) :
    next d .quoted b = .quoted := by
  simp [next, other]

end FieldState

namespace Scan

theorem isOpen_iff (scan : Scan) : scan.isOpen = true ↔ scan.state = .quoted := by
  simp [isOpen]

/-- A line without a quote byte opens no quote. -/
theorem isOpen_line_of_not_mem {d : Dialect} {scan : Scan} {line : Bytes}
    (closed : scan.state ≠ .quoted) (free : d.quote ∉ line) :
    (scan.line d line).isOpen = false := by
  induction line generalizing scan with
  | nil => simpa [Scan.line, isOpen] using closed
  | cons b later ih =>
      unfold Scan.line
      split
      · simpa [isOpen] using closed
      · refine ih ?_ (List.not_mem_of_not_mem_cons free)
        rw [step_state]
        exact FieldState.next_ne_quoted closed (List.ne_of_not_mem_cons free).symm

end Scan

namespace Bytes

theorem eq_of_dropTrailing_eq_nil {last : UInt8} {bytes : Bytes}
    (empty : dropTrailing last bytes = []) : bytes = [] ∨ bytes = [last] := by
  unfold dropTrailing at empty
  split at empty
  · rename_i ends
    have whole := List.dropLast_append_getLast? last ends
    rw [empty, List.nil_append] at whole
    exact .inr whole.symm
  · exact .inl empty

/-- A blank line holds nothing but a terminator. -/
theorem eq_of_mem_blank {line : Bytes} (blank : line.stripTerminator.isEmpty = true) {b : UInt8}
    (member : b ∈ line) : b = lf ∨ b = cr := by
  have inner := eq_of_dropTrailing_eq_nil (List.isEmpty_iff.mp blank)
  unfold dropTrailing at inner
  split at inner
  · rename_i ends
    rw [← List.dropLast_append_getLast? lf ends] at member
    rcases List.mem_append.mp member with front | back
    · rcases inner with empty | single
      · simp [empty] at front
      · exact .inr (by simpa [single] using front)
    · exact .inl (List.mem_singleton.mp back)
  · rcases inner with empty | single
    · simp [empty] at member
    · exact .inr (by simpa [single] using member)

end Bytes

namespace Chunk

open Bytes

/-- The ranges from `here` on, where a record has just ended. -/
def planEnded (d : Dialect) (target start here : Nat) (rest : Bytes) : List ByteRange :=
  if target ≤ here - start then ⟨start, here⟩ :: planFrom d target here here .fieldStart rest
  else planFrom d target start here .fieldStart rest

theorem planEnded_nil {target start here : Nat} (d : Dialect) (within : start < here) :
    planEnded d target start here [] = [⟨start, here⟩] := by
  unfold planEnded
  split <;> simp [planFrom, within]

/-- What has no line feed is planned as a whole. -/
theorem planFrom_unended {d : Dialect} {line : Bytes} (free : lf ∉ line)
    {target start here : Nat} (within : start < here + line.length) (state : FieldState) :
    planFrom d target start here state line = [⟨start, here + line.length⟩] := by
  induction line generalizing here state with
  | nil =>
      rw [List.length_nil, Nat.add_zero] at within
      simp [planFrom, within]
  | cons b later ih =>
      have notLf : ¬(state ≠ .quoted ∧ b = lf) :=
        fun ends => List.ne_of_not_mem_cons free ends.2.symm
      rw [planFrom, if_neg notLf, ih (List.not_mem_of_not_mem_cons free)
        (by rw [List.length_cons] at within; omega)]
      simp [Nat.add_assoc, Nat.add_comm 1]

/-- Behind a line feed the planner is inside quotes exactly when the decoder is. -/
theorem planFrom_body {d : Dialect} (accepted : d.Accepted) {body : Bytes} (free : lf ∉ body)
    (target start here : Nat) (scan : Scan) (rest : Bytes) :
    planFrom d target start here scan.state (body ++ lf :: rest) =
      if (scan.line d (body ++ [lf])).isOpen then
        planFrom d target start (here + (body.length + 1)) .quoted rest
      else planEnded d target start (here + (body.length + 1)) rest := by
  induction body generalizing here scan with
  | nil =>
      by_cases inside : scan.state = .quoted
      · have stays := FieldState.next_quoted (d := d) accepted.quote_ne_lf.symm
        simp [Scan.line, planFrom, Scan.isOpen, inside, stays]
      · simp [Scan.line, Scan.endsRecord, planFrom, planEnded, Scan.isOpen, inside]
  | cons b body ih =>
      have notLf : b ≠ lf := (List.ne_of_not_mem_cons free).symm
      have moved := ih (List.not_mem_of_not_mem_cons free) (here + 1) (scan.step d b)
      rw [Scan.step_state] at moved
      rw [List.cons_append, planFrom, if_neg (fun ends => notLf ends.2), moved, List.cons_append,
        Scan.line, List.length_cons, Nat.add_assoc here 1, Nat.add_comm 1]
      by_cases stops : scan.state ≠ .quoted ∧ Scan.endsRecord b (body ++ [lf]) = true
      · -- The decoder stops at a carriage return; the planner goes on to the line feed.
        obtain ⟨outside, ends⟩ := stops
        obtain ⟨rfl, before⟩ : b = cr ∧ (body ++ [lf]).head? = some lf := by
          simpa [Scan.endsRecord, notLf] using ends
        have nothing : body = [] := by
          cases body with
          | nil => rfl
          | cons next more =>
              obtain rfl : next = lf := by simpa using before
              simp at free
        subst nothing
        have stays := FieldState.next_ne_quoted outside accepted.quote_ne_cr.symm
        simp [Scan.line, Scan.endsRecord, Scan.isOpen, outside, stays]
      · rw [if_neg stops]

/-- The planner goes through a physical line as the decoder does. -/
theorem planFrom_line {d : Dialect} (accepted : d.Accepted) {line : Bytes} {later : List Bytes}
    (physical : Physical (line :: later)) (target : Nat) {start here : Nat}
    (within : start ≤ here) (scan : Scan) :
    planFrom d target start here scan.state (line :: later).flatten =
      if (scan.line d line).isOpen then
        planFrom d target start (here + line.length) .quoted later.flatten
      else planEnded d target start (here + line.length) later.flatten := by
  cases physical with
  | last nonempty free =>
      have longer : start < here + line.length := by
        have := List.length_pos_iff.mpr nonempty
        omega
      rw [List.flatten_singleton, planFrom_unended free longer, List.flatten_nil,
        planEnded_nil d longer]
      simp [planFrom, longer]
  | @cons body free _ rest =>
      rw [List.flatten_cons, List.append_assoc, List.singleton_append,
        planFrom_body accepted free, List.length_append, List.length_singleton]

/-- The planner goes through an open record as the decoder does. -/
theorem planFrom_cut {d : Dialect} (accepted : d.Accepted) {lines : List Bytes}
    (physical : Physical lines) {target start here : Nat} (within : start < here) {scan : Scan}
    (opened : scan.isOpen = true) :
    planFrom d target start here .quoted lines.flatten =
      planEnded d target start (here + (scan.cut d lines).1.flatten.length)
        (scan.cut d lines).2.flatten := by
  induction lines generalizing scan here with
  | nil =>
      rw [Scan.cut, List.flatten_nil, List.length_nil, Nat.add_zero, planEnded_nil d within]
      simp [planFrom, within]
  | cons line later ih =>
      have inside := (Scan.isOpen_iff scan).mp opened
      rw [← inside, planFrom_line accepted physical target (Nat.le_of_lt within), Scan.cut,
        if_pos opened]
      by_cases still : (scan.line d line).isOpen = true
      · rw [if_pos still, ih physical.tail (by omega) still]
        simp [Nat.add_assoc]
      · rw [if_neg still]
        cases later <;> simp [Scan.cut, still]

/-- The planner goes through an extent as the decoder does. -/
theorem planFrom_extent {d : Dialect} (accepted : d.Accepted) {first : Bytes}
    {later : List Bytes} (physical : Physical (first :: later)) {target start here : Nat}
    (within : start ≤ here) :
    planFrom d target start here .fieldStart (first :: later).flatten =
      planEnded d target start (here + (Decoder.cutFirst d first later).1.bytes.length)
        (Decoder.cutFirst d first later).2.flatten := by
  have line := planFrom_line accepted physical target within {}
  have fresh : ({} : Scan).state = .fieldStart := rfl
  rw [fresh] at line
  rw [line]
  unfold Decoder.cutFirst Extent.bytes
  by_cases blank : first.stripTerminator.isEmpty = true
  · have free : d.quote ∉ first := fun member => by
      rcases eq_of_mem_blank blank member with same | same
      · exact accepted.quote_ne_lf same
      · exact accepted.quote_ne_cr same
    rw [if_pos blank, Scan.isOpen_line_of_not_mem (by simp) free]
    simp
  · rw [if_neg blank]
    by_cases opened : (Scan.line d {} first).isOpen = true
    · have longer : start < here + first.length := by
        have := List.length_pos_iff.mpr (physical.ne_nil (List.mem_cons_self ..))
        omega
      rw [if_pos opened, planFrom_cut accepted physical.tail longer opened]
      simp [Nat.add_assoc]
    · rw [if_neg opened]
      cases later <;> simp [Scan.cut, opened]

/-! ## Groups of extents -/

def extentSize (all : List Extent) : Nat :=
  all.flatten.flatten.length

def rangesFrom (start : Nat) : List Nat → List ByteRange
  | [] => []
  | size :: later => ⟨start, start + size⟩ :: rangesFrom (start + size) later

/--
Extents in groups: the first extent with which a group reaches the target closes it.  The
group that is open holds the extents `gathered`.
-/
def group (target : Nat) (gathered : List Extent) : List Extent → List (List Extent)
  | [] => if gathered.isEmpty then [] else [gathered]
  | extent :: later =>
      if target ≤ extentSize (gathered ++ [extent]) then
        (gathered ++ [extent]) :: group target [] later
      else group target (gathered ++ [extent]) later

/-- Groups hold every extent, in order. -/
theorem flatten_group (target : Nat) (gathered all : List Extent) :
    (group target gathered all).flatten = gathered ++ all := by
  fun_induction group target gathered all with
  | case1 gathered empty => simp [List.isEmpty_iff.mp empty]
  | case2 gathered nonempty => simp
  | case3 gathered extent later reached ih => simp [ih]
  | case4 gathered extent later short ih => simp [ih]

theorem ne_nil_of_mem_group {target : Nat} {gathered all members : List Extent}
    (member : members ∈ group target gathered all) : members ≠ [] := by
  fun_induction group target gathered all with
  | case1 gathered empty => cases member
  | case2 gathered nonempty =>
      obtain rfl := List.mem_singleton.mp member
      simpa using nonempty
  | case3 gathered extent later reached ih =>
      rcases List.mem_cons.mp member with rfl | member
      · simp
      · exact ih member
  | case4 gathered extent later short ih => exact ih member

theorem planFrom_extents {d : Dialect} (accepted : d.Accepted) (target : Nat) {lines : List Bytes}
    (physical : Physical lines) (start : Nat) (gathered : List Extent)
    (filled : gathered ≠ [] → 0 < extentSize gathered) :
    planFrom d target start (start + extentSize gathered) .fieldStart lines.flatten =
      rangesFrom start
        ((group target gathered (Decoder.extents d lines)).map extentSize) := by
  induction lines using Decoder.extents.induct d generalizing start gathered with
  | case1 =>
      rw [Decoder.extents_nil, group]
      by_cases empty : gathered = []
      · simp [empty, extentSize, planFrom, rangesFrom]
      · have := filled empty
        simp [empty, planFrom, rangesFrom, this]
  | case2 first later ih =>
      have whole := Decoder.cutFirst_append d first later
      have nonempty := Decoder.cutFirst_ne_nil d first later
      rw [planFrom_extent accepted physical (Nat.le_add_right ..), Decoder.extents_cons, group]
      generalize Decoder.cutFirst d first later = cut at whole nonempty ih ⊢
      obtain ⟨extent, rest⟩ := cut
      rw [← whole] at physical
      have larger : 0 < extent.bytes.length := by
        obtain ⟨line, more, rfl⟩ := List.exists_cons_of_ne_nil nonempty
        have := List.length_pos_iff.mpr (physical.ne_nil (List.mem_cons_self ..))
        simp only [Extent.bytes, List.flatten_cons, List.length_append]
        omega
      have size : extentSize (gathered ++ [extent]) =
          extentSize gathered + extent.bytes.length := by
        simp [extentSize, Extent.bytes]
      unfold planEnded
      rw [Nat.add_assoc, Nat.add_sub_cancel_left, ← size]
      by_cases reached : target ≤ extentSize (gathered ++ [extent])
      · rw [if_pos reached, if_pos reached, List.map_cons, rangesFrom]
        have next := ih physical.right (start + extentSize (gathered ++ [extent])) []
          (fun some => absurd rfl some)
        rw [show extentSize [] = 0 from rfl, Nat.add_zero] at next
        rw [next]
      · rw [if_neg reached, if_neg reached]
        exact ih physical.right start _ (fun _ => by omega)

/-- The plan of data is the greedy grouping of the extents behind its start. -/
theorem plan_eq {d : Dialect} (accepted : d.Accepted) (data : Bytes) (start target : Nat) :
    plan d data start target =
      rangesFrom (min start data.length)
        ((group (max target 1) []
          (Decoder.extents d (lines (data.drop (min start data.length))))).map extentSize) := by
  have found := planFrom_extents accepted (max target 1)
    (physical_lines (data.drop (min start data.length))) (min start data.length) []
    (fun some => absurd rfl some)
  rw [Bytes.flatten_lines] at found
  exact found

end Chunk

end CsvImport
