import CsvImport.Proofs.Planning
import CsvImport.Proofs.Reading
import Mathlib.Algebra.GroupWithZero.Nat
import Mathlib.Data.List.Basic

/-!
# Decoding in chunks

The ranges of a plan, each read by a decoder of its own, yield what one decoder
yields for the whole.  Ranges hold whole extents, and only the extent at the end of the
data can be unterminated.
-/

namespace CsvImport

namespace Chunk

open Bytes Decoder

/--
What fresh decoders yield for the ranges of data, one after the other.  Each starts at the
line behind the line feeds of the ranges before it.
-/
def decodeEach (d : Dialect) (data : Bytes) (line : Nat) :
    List ByteRange → List (List (Except DecodeError (Item String)))
  | [] => []
  | range :: later =>
      ((Decoder.ofBytes (range.slice data) line).records d).1 ::
        decodeEach d data (line + (range.slice data).lineFeeds) later

/-- The items of groups of extents, each group read from offset zero. -/
def itemsEach (d : Dialect) (line : Nat) :
    List (List Extent) → List (List (Except DecodeError (Item String)))
  | [] => []
  | members :: later =>
      (Extent.items d line 0 members).map asText ::
        itemsEach d (line + members.flatten.length) later

theorem rangesFrom_append (start : Nat) (first later : List Nat) :
    rangesFrom start (first ++ later) =
      rangesFrom start first ++ rangesFrom (start + first.sum) later := by
  induction first generalizing start with
  | nil => simp [rangesFrom]
  | cons size rest ih => simp [rangesFrom, ih, Nat.add_assoc]

/-- A range of a plan of groups is that of a group, behind the groups before it. -/
theorem exists_of_mem_rangesFrom {start : Nat} {groups : List (List Extent)} {range : ByteRange}
    (member : range ∈ rangesFrom start (groups.map extentSize)) :
    ∃ earlier members later, groups = earlier ++ members :: later ∧
      range = ⟨start + extentSize earlier.flatten,
        start + extentSize earlier.flatten + extentSize members⟩ := by
  induction groups generalizing start with
  | nil => cases member
  | cons first rest ih =>
      rcases List.mem_cons.mp member with rfl | member
      · exact ⟨[], first, rest, rfl, rfl⟩
      · obtain ⟨earlier, members, later, rfl, rfl⟩ := ih member
        refine ⟨first :: earlier, members, later, rfl, ?_⟩
        simp [extentSize, Nat.add_assoc]

theorem sum_extentSize (groups : List (List Extent)) :
    (groups.map extentSize).sum = extentSize groups.flatten := by
  induction groups with
  | nil => rfl
  | cons members later ih => simp [ih, extentSize]

theorem slice_of_drop {data front rest : Bytes} {start : Nat}
    (found : data.drop start = front ++ rest) :
    (ByteRange.mk start (start + front.length)).slice data = front := by
  simp [ByteRange.slice, ByteRange.size, found]

theorem decodeEach_rangesFrom {d : Dialect} {data : Bytes} {groups : List (List Extent)}
    (are : AreExtents d groups.flatten) (physical : Physical groups.flatten.flatten)
    (filled : ∀ members ∈ groups, members ≠ []) {start : Nat}
    (found : data.drop start = groups.flatten.flatten.flatten) (line : Nat) :
    decodeEach d data line (rangesFrom start (groups.map extentSize)) =
      itemsEach d line groups := by
  induction groups generalizing start line with
  | nil => rfl
  | cons members later ih =>
      simp only [List.flatten_cons, List.flatten_append] at are physical found
      have here : ((ByteRange.mk start (start + extentSize members)).slice data) =
          members.flatten.flatten := slice_of_drop found
      have alone : extents d members.flatten = members := are.left
      have behind : data.drop (start + extentSize members) = later.flatten.flatten.flatten := by
        rw [← List.drop_drop, found]
        exact List.drop_left
      have decoded : ((Decoder.ofBytes members.flatten.flatten line).records d).1 =
          (Extent.items d line 0 members).map asText := by
        rw [ofBytes_eq, physical.left.lines_flatten, records_lines, alone]
      rw [List.map_cons, rangesFrom, decodeEach, itemsEach, here, decoded]
      refine congrArg (_ :: ·) ?_
      cases later with
      | nil => rfl
      | cons next more =>
          have some : (List.flatten (next :: more)).flatten ≠ [] := by
            obtain ⟨extent, rest, rfl⟩ :=
              List.exists_cons_of_ne_nil (filled next (by simp))
            have member : extent ∈ ((extent :: rest) :: more).flatten := by simp
            simp [are.right.ne_nil member]
          rw [Bytes.Physical.lineFeeds_flatten physical some]
          exact ih are.right physical.right
            (fun members member => filled members (List.mem_cons_of_mem _ member)) behind _

/-- What the groups yield is what their extents yield in a row. -/
theorem decoded_itemsEach (d : Dialect) (line offset : Nat) (groups : List (List Extent)) :
    (itemsEach d line groups).flatMap decoded =
      decoded ((Extent.items d line offset groups.flatten).map asText) := by
  induction groups generalizing line offset with
  | nil => rfl
  | cons members later ih =>
      have start : (Extent.items d line offset members).map asText =
          ((Extent.items d line 0 members).map asText).map (·.mapError (·.moved offset)) := by
        rw [← Nat.zero_add offset, Extent.items_moved, Nat.zero_add, List.map_map, List.map_map]
        refine List.map_congr_left fun item _ => ?_
        cases item <;> rfl
      rw [itemsEach, List.flatMap_cons, List.flatten_cons, Extent.items_append, List.map_append,
        decoded_append, start, decoded_moved, ih]

theorem failure?_asText (items : List (Except DecodeError (Item Bytes))) :
    failure? (items.map asText) = failure? items := by
  unfold failure?
  rw [List.findSome?_map]
  refine congrArg (List.findSome? · items) (funext fun item => ?_)
  cases item <;> rfl

/-- Only the last group can fail, and it fails as all extents in a row do. -/
theorem failure?_itemsEach {d : Dialect} {earlier : List (List Extent)} {last : List Extent}
    (are : AreExtents d (earlier ++ [last]).flatten) (filled : last ≠ []) (line offset : Nat) :
    ∃ parts part, itemsEach d line (earlier ++ [last]) = parts ++ [part] ∧
      (∀ items ∈ parts, failure? items = none) ∧
      failure? ((Extent.items d line offset (earlier ++ [last]).flatten).map asText) =
        (failure? part).map (·.moved (offset + extentSize earlier.flatten)) := by
  induction earlier generalizing line offset with
  | nil =>
      refine ⟨[], (Extent.items d line 0 last).map asText, rfl, by simp, ?_⟩
      have start := Extent.items_moved d line 0 offset last
      rw [Nat.zero_add] at start
      rw [List.nil_append, List.flatten_singleton, failure?_asText, start, failure?_moved,
        failure?_asText]
      simp [extentSize]
  | cons members earlier ih =>
      rw [List.cons_append, List.flatten_cons] at are
      have more : (earlier ++ [last]).flatten ≠ [] := by simp [filled]
      obtain ⟨parts, part, same, fine, failed⟩ :=
        ih are.right (line + members.flatten.length) (offset + members.flatten.flatten.length)
      refine ⟨(Extent.items d line 0 members).map asText :: parts, part, ?_, ?_, ?_⟩
      · rw [List.cons_append, itemsEach, same, List.cons_append]
      · intro items member
        rcases List.mem_cons.mp member with rfl | member
        · rw [failure?_asText]
          exact items_ok_of_more are more line 0
        · exact fine items member
      · rw [List.cons_append, List.flatten_cons, Extent.items_append, List.map_append,
          failure?_append, failure?_asText, items_ok_of_more are more, Option.none_or, failed]
        simp [extentSize, Nat.add_assoc]

def planned (d : Dialect) (data : Bytes) (start target : Nat) : List (List Extent) :=
  group (max target 1) [] (extents d (lines (data.drop start)))

section

variable {d : Dialect} {data : Bytes} {start target : Nat}

theorem flatten_planned :
    (planned d data start target).flatten = extents d (lines (data.drop start)) := by
  rw [planned, flatten_group, List.nil_append]

theorem areExtents_planned : AreExtents d (planned d data start target).flatten := by
  rw [flatten_planned]
  exact areExtents_extents ..

theorem flatten_flatten_planned :
    (planned d data start target).flatten.flatten = lines (data.drop start) := by
  rw [flatten_planned, flatten_extents]

theorem plan_eq_rangesFrom (accepted : d.Accepted) (within : start ≤ data.length) :
    plan d data start target =
      rangesFrom start ((planned d data start target).map extentSize) := by
  rw [plan_eq accepted, Nat.min_eq_left within, planned]

/-- A range of a plan holds some of the extents in a row. -/
theorem extents_of_mem_plan (accepted : d.Accepted) (within : start ≤ data.length)
    {range : ByteRange} (member : range ∈ plan d data start target) :
    ∃ front members later : List Extent,
      extents d (lines (data.drop start)) = front ++ (members ++ later) ∧
      range.start = start + extentSize front ∧ range.slice data = members.flatten.flatten := by
  rw [plan_eq_rangesFrom accepted within] at member
  obtain ⟨earlier, members, later, groups, rfl⟩ := exists_of_mem_rangesFrom member
  have all : extents d (lines (data.drop start)) =
      earlier.flatten ++ (members ++ later.flatten) := by
    have whole : (planned d data start target).flatten = extents d (lines (data.drop start)) :=
      flatten_planned
    rw [← whole, groups, List.flatten_append, List.flatten_cons]
  have bytes : data.drop start = earlier.flatten.flatten.flatten ++
      (members.flatten.flatten ++ later.flatten.flatten.flatten) := by
    have whole : (extents d (lines (data.drop start))).flatten.flatten = data.drop start := by
      rw [flatten_extents, Bytes.flatten_lines]
    rw [← whole, all]
    simp only [List.flatten_append]
  have behind : data.drop (start + extentSize earlier.flatten) =
      members.flatten.flatten ++ later.flatten.flatten.flatten := by
    rw [← List.drop_drop, bytes]
    exact List.drop_left
  exact ⟨earlier.flatten, members, later.flatten, all, rfl, slice_of_drop behind⟩

theorem decodeEach_plan_eq (accepted : d.Accepted) (within : start ≤ data.length) (line : Nat) :
    decodeEach d data line (plan d data start target) =
      itemsEach d line (planned d data start target) := by
  rw [plan_eq_rangesFrom accepted within]
  refine decodeEach_rangesFrom areExtents_planned ?_ (fun _ => ne_nil_of_mem_group) ?_ line
  · rw [flatten_flatten_planned]
    exact physical_lines _
  · rw [flatten_flatten_planned, Bytes.flatten_lines]

theorem records_drop (line : Nat) :
    ((Decoder.ofBytes (data.drop start) line).records d).1 =
      (Extent.items d line 0 (planned d data start target).flatten).map asText := by
  rw [flatten_planned, ofBytes_eq, records_lines]

end

/--
Chunks are decoded as the whole is: the rows and blank lines are the same, and so is the
error of an unterminated quote, which only the last chunk can have and whose offset counts from
the start of that chunk.
-/
theorem decodeEach_plan {d : Dialect} (accepted : d.Accepted) (data : Bytes)
    (start target line : Nat) (within : start ≤ data.length) :
    let ranges := plan d data start target
    let parts := decodeEach d data line ranges
    let whole := ((Decoder.ofBytes (data.drop start) line).records d).1
    parts.flatMap decoded = decoded whole ∧
      (∀ first offset, failure? whole = some (.unterminatedQuote first offset) →
        ∃ earlier last range, parts = earlier ++ [last] ∧ ranges.getLast? = some range ∧
          (∀ part ∈ earlier, failure? part = none) ∧
          start ≤ range.start ∧ range.start - start ≤ offset ∧
          failure? last = some (.unterminatedQuote first (offset - (range.start - start)))) ∧
      ((∀ first offset, failure? whole ≠ some (.unterminatedQuote first offset)) →
        ∀ part ∈ parts, failure? part = none) := by
  intro ranges parts whole
  have partsEq : parts = itemsEach d line (planned d data start target) :=
    decodeEach_plan_eq accepted within line
  have wholeEq : whole =
      (Extent.items d line 0 (planned d data start target).flatten).map asText :=
    records_drop line
  have rangesEq : ranges = rangesFrom start ((planned d data start target).map extentSize) :=
    plan_eq_rangesFrom accepted within
  have are : AreExtents d (planned d data start target).flatten := areExtents_planned
  have filled : ∀ members ∈ planned d data start target, members ≠ [] :=
    fun _ => ne_nil_of_mem_group
  refine ⟨by rw [partsEq, wholeEq, decoded_itemsEach d line 0], ?_⟩
  clear_value ranges parts whole
  rcases List.eq_nil_or_concat' (planned d data start target) with empty | ⟨earlier, last, shape⟩
  · -- Without a range there is nothing to fail.
    rw [empty] at partsEq wholeEq
    subst partsEq wholeEq
    exact ⟨fun _ _ failed => (by cases failed), fun _ _ member => by cases member⟩
  · rw [shape] at partsEq wholeEq rangesEq are filled
    obtain ⟨front, part, same, fine, failed⟩ :=
      failure?_itemsEach are (filled last (by simp)) line 0
    rw [Nat.zero_add, ← wholeEq] at failed
    rw [same] at partsEq
    have lastRange : ranges.getLast? = some
        ⟨start + extentSize earlier.flatten,
          start + extentSize earlier.flatten + extentSize last⟩ := by
      rw [rangesEq, List.map_append, rangesFrom_append, sum_extentSize]
      simp [rangesFrom]
    constructor
    · intro first offset found
      rw [failed] at found
      obtain ⟨e, partFailed, moved⟩ := Option.map_eq_some_iff.mp found
      cases e with
      | readInput => cases moved
      | unterminatedQuote line inner =>
          cases moved
          refine ⟨front, part, _, partsEq, lastRange, fine, ?_, ?_, ?_⟩
          · exact Nat.le_add_right ..
          · simp
          · simpa using partFailed
    · intro complete items member
      rw [partsEq] at member
      rcases List.mem_append.mp member with member | member
      · exact fine items member
      · obtain rfl := List.mem_singleton.mp member
        cases partFailed : failure? items with
        | none => rfl
        | some e =>
            rw [partFailed, Option.map_some] at failed
            rw [wholeEq, failure?_asText] at failed
            obtain ⟨first, offset, moved⟩ := unterminated_of_failure? failed
            rw [moved, ← failure?_asText, ← wholeEq] at failed
            exact absurd failed (complete first offset)

/-- Three lines of which the last two are inside a quote that is never closed. -/
theorem decodeEach_plan_openQuote :
    let data : Bytes := [97, 10, 34, 98, 10, 99]
    Dialect.Accepted {} ∧ 0 ≤ data.length ∧
      failure? ((Decoder.ofBytes (data.drop 0) 1).records {}).1 = some (.unterminatedQuote 2 2) ∧
      ∃ earlier last, decodeEach {} data 1 (plan {} data 0 1) = earlier ++ [last] ∧
        (∀ part ∈ earlier, failure? part = none) ∧
        failure? last = some (.unterminatedQuote 2 0) := by
  intro data
  have whole : failure? ((Decoder.ofBytes (data.drop 0) 1).records {}).1 =
      some (.unterminatedQuote 2 2) := by decide +kernel
  have ranges : plan {} data 0 1 = [⟨0, 2⟩, ⟨2, 6⟩] := by decide
  obtain ⟨earlier, last, range, parts, lastRange, fine, -, -, failed⟩ :=
    (decodeEach_plan Dialect.accepted_default data 0 1 1 (Nat.zero_le _)).2.1 2 2 whole
  rw [ranges] at lastRange
  cases lastRange
  exact ⟨Dialect.accepted_default, Nat.zero_le _, whole, earlier, last, parts, fine, failed⟩

end Chunk

end CsvImport
