import CsvImport.Proofs.Lines
import CsvImport.Record.Decoder

/-!
# Extents

An extent is the physical lines that one call of the decoder takes: a blank line, or
a record with every line that an open quote adds to it.  A list of lines falls into extents,
and what the decoder yields is read off the extents one by one.  Extents are found
from their own lines alone, so some of them in a row are found again without the others.
-/

namespace CsvImport

abbrev Extent := List Bytes

namespace Extent

def bytes (extent : Extent) : Bytes :=
  extent.flatten

end Extent

namespace Scan

/-- The lines that an open record takes, and the lines behind it. -/
def cut (d : Dialect) (scan : Scan) : List Bytes → List Bytes × List Bytes
  | [] => ([], [])
  | line :: later =>
      if scan.isOpen then
        (line :: (cut d (scan.line d line) later).1, (cut d (scan.line d line) later).2)
      else ([], line :: later)

def across (d : Dialect) (scan : Scan) (lines : List Bytes) : Scan :=
  lines.foldl (Scan.line d) scan

theorem cut_append (d : Dialect) (scan : Scan) (lines : List Bytes) :
    (cut d scan lines).1 ++ (cut d scan lines).2 = lines := by
  fun_induction cut d scan lines with
  | case1 => rfl
  | case2 scan line later isOpen ih => rw [List.cons_append, ih]
  | case3 => rfl

/-- A quote that stays open takes all lines. -/
theorem cut_open {d : Dialect} {scan : Scan} {lines : List Bytes}
    (isOpen : (scan.across d (cut d scan lines).1).isOpen = true) : (cut d scan lines).2 = [] := by
  fun_induction cut d scan lines with
  | case1 => rfl
  | case2 scan line later opened ih => exact ih isOpen
  | case3 scan line later closed => exact absurd isOpen closed

/-- What an open record takes does not depend on lines that it leaves. -/
theorem cut_left {d : Dialect} {scan : Scan} {taken first later : List Bytes}
    (found : cut d scan (taken ++ (first ++ later)) = (taken, first ++ later)) :
    cut d scan (taken ++ first) = (taken, first) := by
  induction taken generalizing scan with
  | nil =>
      cases first with
      | nil => rfl
      | cons line first =>
          rw [List.nil_append, List.cons_append, cut] at found
          split at found
          · cases found
          · rename_i closed
            simp [cut, closed]
  | cons line taken ih =>
      rw [List.cons_append, cut] at found ⊢
      split at found
      · rename_i opened
        rw [if_pos opened]
        obtain ⟨same, rest⟩ := Prod.mk.inj found
        rw [ih (Prod.ext (List.cons.inj same).2 rest)]
      · cases found

/-- An open record takes the same lines when there are more behind its last one. -/
theorem cut_right {d : Dialect} {scan : Scan} {taken : List Bytes}
    (found : cut d scan taken = (taken, [])) (closed : (scan.across d taken).isOpen = false)
    (later : List Bytes) : cut d scan (taken ++ later) = (taken, later) := by
  induction taken generalizing scan with
  | nil =>
      cases later with
      | nil => rfl
      | cons line later =>
          change scan.isOpen = false at closed
          rw [List.nil_append, cut, closed]
          rfl
  | cons line taken ih =>
      rw [cut] at found
      split at found
      · rename_i opened
        obtain ⟨same, rest⟩ := Prod.mk.inj found
        rw [List.cons_append, cut, if_pos opened,
          ih (Prod.ext (List.cons.inj same).2 rest) closed]
      · cases found

end Scan

namespace Decoder

/-- The first extent of lines, and the lines behind it. -/
def cutFirst (d : Dialect) (first : Bytes) (later : List Bytes) : Extent × List Bytes :=
  if first.stripTerminator.isEmpty then ([first], later)
  else
    (first :: (Scan.cut d (Scan.line d {} first) later).1,
      (Scan.cut d (Scan.line d {} first) later).2)

theorem cutFirst_append (d : Dialect) (first : Bytes) (later : List Bytes) :
    (cutFirst d first later).1 ++ (cutFirst d first later).2 = first :: later := by
  unfold cutFirst
  split
  · rfl
  · rw [List.cons_append, Scan.cut_append]

theorem cutFirst_length (d : Dialect) (first : Bytes) (later : List Bytes) :
    (cutFirst d first later).2.length ≤ later.length := by
  unfold cutFirst
  split
  · exact Nat.le_refl _
  · have whole := congrArg List.length (Scan.cut_append d (Scan.line d {} first) later)
    rw [List.length_append] at whole
    simp only
    omega

def extents (d : Dialect) : List Bytes → List Extent
  | [] => []
  | first :: later => (cutFirst d first later).1 :: extents d (cutFirst d first later).2
termination_by lines => lines.length
decreasing_by exact Nat.lt_succ_of_le (cutFirst_length d first later)

@[simp]
theorem extents_nil (d : Dialect) : extents d [] = [] := by
  rw [extents]

theorem extents_cons (d : Dialect) (first : Bytes) (later : List Bytes) :
    extents d (first :: later) =
      (cutFirst d first later).1 :: extents d (cutFirst d first later).2 := by
  rw [extents]

/-- Lines are their extents, one behind the other. -/
theorem flatten_extents (d : Dialect) (lines : List Bytes) : (extents d lines).flatten = lines := by
  fun_induction extents d lines with
  | case1 => rfl
  | case2 first later ih => rw [List.flatten_cons, ih, cutFirst_append]

theorem cutFirst_ne_nil (d : Dialect) (first : Bytes) (later : List Bytes) :
    (cutFirst d first later).1 ≠ [] := by
  unfold cutFirst
  split <;> simp

theorem ne_nil_of_mem_extents {d : Dialect} {lines : List Bytes} {extent : Extent}
    (member : extent ∈ extents d lines) : extent ≠ [] := by
  fun_induction extents d lines with
  | case1 => cases member
  | case2 first later ih =>
      rcases List.mem_cons.mp member with rfl | member
      · exact cutFirst_ne_nil d first later
      · exact ih member

def AreExtents (d : Dialect) (all : List Extent) : Prop :=
  extents d all.flatten = all

theorem areExtents_extents (d : Dialect) (lines : List Bytes) : AreExtents d (extents d lines) := by
  unfold AreExtents
  rw [flatten_extents]

namespace AreExtents

theorem ne_nil {d : Dialect} {all : List Extent} (found : AreExtents d all) {extent : Extent}
    (member : extent ∈ all) : extent ≠ [] := by
  rw [← show extents d all.flatten = all from found] at member
  exact ne_nil_of_mem_extents member

/-- The first of some extents is cut off their lines, and the others are extents. -/
theorem uncons {d : Dialect} {extent : Extent} {later : List Extent}
    (found : AreExtents d (extent :: later)) :
    (∃ first more, extent = first :: more ∧
      cutFirst d first (more ++ later.flatten) = (first :: more, later.flatten)) ∧
      AreExtents d later := by
  obtain ⟨first, more, rfl⟩ := List.exists_cons_of_ne_nil (found.ne_nil (List.mem_cons_self ..))
  unfold AreExtents at found
  rw [List.flatten_cons, List.cons_append, extents_cons] at found
  obtain ⟨same, rest⟩ := List.cons.inj found
  have whole := cutFirst_append d first (more ++ later.flatten)
  rw [same, ← List.cons_append] at whole
  have behind := List.append_cancel_left whole
  rw [behind] at rest
  exact ⟨⟨first, more, rfl, Prod.ext same behind⟩, rest⟩

/-- Extents in front of others are found without them. -/
theorem left {d : Dialect} {first later : List Extent} (found : AreExtents d (first ++ later)) :
    AreExtents d first := by
  induction first with
  | nil => exact extents_nil d
  | cons extent rest ih =>
      rw [List.cons_append] at found
      obtain ⟨⟨line, more, rfl, cut⟩, others⟩ := found.uncons
      unfold AreExtents
      have alone : cutFirst d line (more ++ rest.flatten) = (line :: more, rest.flatten) := by
        rw [List.flatten_append] at cut
        unfold cutFirst at cut ⊢
        split at cut
        · rename_i blank
          obtain ⟨same, -⟩ := Prod.mk.inj cut
          obtain rfl : [] = more := (List.cons.inj same).2
          rw [if_pos blank]
          rfl
        · rename_i notBlank
          obtain ⟨same, behind⟩ := Prod.mk.inj cut
          rw [if_neg notBlank, Scan.cut_left (Prod.ext (List.cons.inj same).2 behind)]
      rw [List.flatten_cons, List.cons_append, extents_cons, alone, ih others]

/-- Extents behind others are found without them. -/
theorem right {d : Dialect} {first later : List Extent} (found : AreExtents d (first ++ later)) :
    AreExtents d later := by
  induction first with
  | nil => exact found
  | cons extent rest ih => exact ih found.uncons.2

end AreExtents

end Decoder

end CsvImport
