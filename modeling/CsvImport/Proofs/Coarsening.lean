import CsvImport.Proofs.Calls
import CsvImport.Proofs.Planning

/-!
# Coarser plans

Every plan tiles the data behind its start.  The finest plan has one range for each segment that
a call of the decoder takes, and a plan with a larger target is the greedy coarsening of it: its
ranges end where ranges of the finest plan end, and each is closed by the first of those with
which it reaches the target.
-/

namespace CsvImport

namespace ByteRange

/-- The bytes of two ranges in a row are those of the range they make up. -/
theorem slice_append {start middle stop : Nat} (first : start ≤ middle) (second : middle ≤ stop)
    (data : Bytes) :
    (mk start middle).slice data ++ (mk middle stop).slice data = (mk start stop).slice data := by
  have parts : stop - start = (middle - start) + (stop - middle) := by omega
  have behind : middle = start + (middle - start) := by omega
  simp only [slice, size]
  rw [parts, List.take_add, List.drop_drop, ← behind]

end ByteRange

namespace Chunk

open Bytes Decoder

/-! ## Tilings -/

/-- Non-empty ranges in a row that cover the bytes from one position to another. -/
inductive Tiles : Nat → Nat → List ByteRange → Prop where
  | nil (here : Nat) : Tiles here here []
  | cons {start middle stop : Nat} {later : List ByteRange} (nonempty : start < middle)
      (rest : Tiles middle stop later) : Tiles start stop (⟨start, middle⟩ :: later)

namespace Tiles

variable {start stop : Nat} {ranges : List ByteRange} {range : ByteRange}

theorem le (tiles : Tiles start stop ranges) : start ≤ stop := by
  induction tiles with
  | nil => exact Nat.le_refl _
  | cons nonempty rest ih => omega

theorem eq_nil_iff (tiles : Tiles start stop ranges) : ranges = [] ↔ start = stop := by
  cases tiles with
  | nil => simp
  | cons nonempty rest =>
      have := rest.le
      simp
      omega

theorem bounds (tiles : Tiles start stop ranges) (member : range ∈ ranges) :
    start ≤ range.start ∧ range.start < range.stop ∧ range.stop ≤ stop := by
  induction tiles with
  | nil => cases member
  | cons nonempty rest ih =>
      rcases List.mem_cons.mp member with rfl | member
      · exact ⟨Nat.le_refl _, nonempty, rest.le⟩
      · have inner := ih member
        omega

/-- The first range begins where the tiling does. -/
theorem exists_start (tiles : Tiles start stop ranges) (some : start < stop) :
    ∃ range ∈ ranges, range.start = start := by
  cases tiles with
  | nil => exact absurd some (Nat.lt_irrefl _)
  | cons => exact ⟨_, List.mem_cons_self .., rfl⟩

/-- Each range begins where another ends, or where the tiling begins. -/
theorem start_of_mem (tiles : Tiles start stop ranges) (member : range ∈ ranges) :
    range.start = start ∨ ∃ earlier ∈ ranges, earlier.stop = range.start := by
  induction tiles with
  | nil => cases member
  | cons nonempty rest ih =>
      rcases List.mem_cons.mp member with rfl | member
      · exact .inl rfl
      · rcases ih member with first | ⟨earlier, listed, same⟩
        · exact .inr ⟨_, List.mem_cons_self .., first.symm⟩
        · exact .inr ⟨earlier, List.mem_cons_of_mem _ listed, same⟩

/-- Where a range ends another begins, or the tiling ends. -/
theorem stop_of_mem (tiles : Tiles start stop ranges) (member : range ∈ ranges) :
    range.stop = stop ∨ ∃ next ∈ ranges, next.start = range.stop := by
  induction tiles with
  | nil => cases member
  | @cons start middle stop later nonempty rest ih =>
      rcases List.mem_cons.mp member with rfl | member
      · rcases Nat.eq_or_lt_of_le rest.le with last | more
        · exact .inl last
        · obtain ⟨next, listed, same⟩ := rest.exists_start more
          exact .inr ⟨next, List.mem_cons_of_mem _ listed, same⟩
      · rcases ih member with last | ⟨next, listed, same⟩
        · exact .inl last
        · exact .inr ⟨next, List.mem_cons_of_mem _ listed, same⟩

theorem flatten_slice (tiles : Tiles start stop ranges) (data : Bytes) :
    (ranges.map (·.slice data)).flatten = (ByteRange.mk start stop).slice data := by
  induction tiles with
  | nil here => simp [ByteRange.slice, ByteRange.size]
  | cons nonempty rest ih =>
      rw [List.map_cons, List.flatten_cons, ih,
        ByteRange.slice_append (Nat.le_of_lt nonempty) rest.le]

theorem flatten_slice_drop {data : Bytes} (tiles : Tiles start data.length ranges) :
    (ranges.map (·.slice data)).flatten = data.drop start := by
  rw [tiles.flatten_slice, ByteRange.slice]
  exact List.take_of_length_le (by simp [ByteRange.size])

end Tiles

variable {d : Dialect} {target start mark here : Nat}

theorem tiles_planFrom (d : Dialect) (target : Nat) (within : start ≤ here) (state : FieldState)
    (rest : Bytes) :
    Tiles start (here + rest.length) (planFrom d target start here state rest) := by
  induction rest generalizing start here state with
  | nil =>
      unfold planFrom
      split
      · exact .cons ‹_› (.nil _)
      · obtain rfl : start = here := by omega
        exact .nil _
  | cons b later ih =>
      have behind : here + (b :: later).length = here + 1 + later.length := by
        rw [List.length_cons]
        omega
      rw [behind]
      unfold planFrom
      split
      · split
        · exact .cons (by omega) (ih (Nat.le_refl _) _)
        · exact ih (by omega) _
      · exact ih (by omega) _

/-- A plan tiles the data behind its start. -/
theorem tiles_plan (d : Dialect) (data : Bytes) (start target : Nat) :
    Tiles (min start data.length) data.length (plan d data start target) := by
  have tiles := tiles_planFrom d (max target 1) (Nat.le_refl (min start data.length)) .fieldStart
    (data.drop (min start data.length))
  have whole : min start data.length + (data.drop (min start data.length)).length =
      data.length := by
    rw [List.length_drop]
    omega
  rwa [whole] at tiles

/-! ## Coarsening -/

/--
How ranges are gathered greedily from the parts of a finer tiling.  The range that is open began
at `start` and reaches to `mark`; the first part with which it reaches the target closes it.
-/
inductive Coarsens (target : Nat) : Nat → Nat → List ByteRange → List ByteRange → Prop where
  | done (here : Nat) : Coarsens target here here [] []
  | last {start mark : Nat} (some : start < mark) : Coarsens target start mark [] [⟨start, mark⟩]
  | closes {start mark stop : Nat} {parts ranges : List ByteRange} (nonempty : mark < stop)
      (reached : target ≤ stop - start) (rest : Coarsens target stop stop parts ranges) :
      Coarsens target start mark (⟨mark, stop⟩ :: parts) (⟨start, stop⟩ :: ranges)
  | gathers {start mark stop : Nat} {parts ranges : List ByteRange} (nonempty : mark < stop)
      (short : stop - start < target) (rest : Coarsens target start stop parts ranges) :
      Coarsens target start mark (⟨mark, stop⟩ :: parts) ranges

namespace Coarsens

variable {parts ranges : List ByteRange} {part range : ByteRange}

theorem start_le (coarsens : Coarsens target start mark parts ranges) (member : range ∈ ranges)
    (before : start ≤ mark) : start ≤ range.start := by
  induction coarsens with
  | done => cases member
  | last =>
      obtain rfl := List.mem_singleton.mp member
      exact Nat.le_refl _
  | closes nonempty reached rest ih =>
      rcases List.mem_cons.mp member with rfl | member
      · exact Nat.le_refl _
      · have := ih member (Nat.le_refl _)
        omega
  | gathers nonempty short rest ih => exact ih member (by omega)

theorem mark_lt (coarsens : Coarsens target start mark parts ranges) (member : part ∈ parts) :
    mark < part.stop := by
  induction coarsens with
  | done => cases member
  | last => cases member
  | closes nonempty reached rest ih =>
      rcases List.mem_cons.mp member with rfl | member
      · exact nonempty
      · exact Nat.lt_trans nonempty (ih member)
  | gathers nonempty short rest ih =>
      rcases List.mem_cons.mp member with rfl | member
      · exact nonempty
      · exact Nat.lt_trans nonempty (ih member)

/-- Ranges end where parts do. -/
theorem exists_stop (coarsens : Coarsens target start mark parts ranges)
    (member : range ∈ ranges) : range.stop = mark ∨ ∃ part ∈ parts, part.stop = range.stop := by
  induction coarsens with
  | done => cases member
  | last =>
      obtain rfl := List.mem_singleton.mp member
      exact .inl rfl
  | closes nonempty reached rest ih =>
      rcases List.mem_cons.mp member with rfl | member
      · exact .inr ⟨_, List.mem_cons_self .., rfl⟩
      · rcases ih member with here | ⟨part, listed, same⟩
        · exact .inr ⟨_, List.mem_cons_self .., here.symm⟩
        · exact .inr ⟨part, List.mem_cons_of_mem _ listed, same⟩
  | gathers nonempty short rest ih =>
      rcases ih member with here | ⟨part, listed, same⟩
      · exact .inr ⟨_, List.mem_cons_self .., here.symm⟩
      · exact .inr ⟨part, List.mem_cons_of_mem _ listed, same⟩

/-- Every range but the last reaches the target. -/
theorem le_size (coarsens : Coarsens target start mark parts ranges)
    (member : range ∈ ranges.dropLast) : target ≤ range.size := by
  induction coarsens with
  | done => cases member
  | last => cases member
  | @closes start mark stop parts ranges nonempty reached rest ih =>
      cases ranges with
      | nil => cases member
      | cons next later =>
          rcases List.mem_cons.mp member with rfl | member
          · exact reached
          · exact ih member
  | gathers nonempty short rest ih => exact ih member

/-- No range reaches the target with a part before its last. -/
theorem lt_target (coarsens : Coarsens target start mark parts ranges) (before : start ≤ mark)
    (member : range ∈ ranges) (listed : part ∈ parts) (inside : range.start < part.stop)
    (earlier : part.stop < range.stop) : part.stop - range.start < target := by
  induction coarsens with
  | done => cases member
  | last => cases listed
  | closes nonempty reached rest ih =>
      rcases List.mem_cons.mp member with rfl | member
      · rcases List.mem_cons.mp listed with rfl | listed
        · exact absurd earlier (Nat.lt_irrefl _)
        · have : _ < part.stop := rest.mark_lt listed
          dsimp only at earlier
          omega
      · rcases List.mem_cons.mp listed with rfl | listed
        · have := rest.start_le member (Nat.le_refl _)
          dsimp only at inside
          omega
        · exact ih (Nat.le_refl _) member listed
  | gathers nonempty short rest ih =>
      rcases List.mem_cons.mp listed with rfl | listed
      · have := rest.start_le member (by omega)
        dsimp only
        omega
      · exact ih (by omega) member listed

end Coarsens

/-- The planner gathers the parts that it would cut with the least target. -/
theorem coarsens_planFrom (d : Dialect) (target : Nat) (before : start ≤ mark)
    (within : mark ≤ here) (state : FieldState) (rest : Bytes) :
    Coarsens target start mark (planFrom d 1 mark here state rest)
      (planFrom d target start here state rest) := by
  induction rest generalizing start mark here state with
  | nil =>
      unfold planFrom
      by_cases behind : mark < here
      · rw [if_pos behind, if_pos (Nat.lt_of_le_of_lt before behind)]
        by_cases reached : target ≤ here - start
        · exact .closes behind reached (.done here)
        · exact .gathers behind (Nat.lt_of_not_le reached)
            (.last (Nat.lt_of_le_of_lt before behind))
      · obtain rfl : mark = here := by omega
        rw [if_neg behind]
        split
        · exact .last ‹_›
        · obtain rfl : start = mark := by omega
          exact .done start
  | cons b later ih =>
      unfold planFrom
      by_cases ends : state ≠ .quoted ∧ b = lf
      · have finest : 1 ≤ here + 1 - mark := by omega
        rw [if_pos ends, if_pos ends, if_pos finest]
        by_cases reached : target ≤ here + 1 - start
        · rw [if_pos reached]
          exact .closes (by omega) reached (ih (Nat.le_refl _) (Nat.le_refl _) .fieldStart)
        · rw [if_neg reached]
          exact .gathers (by omega) (Nat.lt_of_not_le reached)
            (ih (by omega) (Nat.le_refl _) .fieldStart)
      · rw [if_neg ends, if_neg ends]
        exact ih before (by omega) _

theorem coarsens_plan (d : Dialect) (data : Bytes) (start target : Nat) :
    Coarsens (max target 1) (min start data.length) (min start data.length)
      (plan d data start 1) (plan d data start target) :=
  coarsens_planFrom d (max target 1) (Nat.le_refl _) (Nat.le_refl _) .fieldStart _

/-- Both ends of a range are ends of ranges of the finest plan. -/
theorem ends_of_mem_plan {d : Dialect} {data : Bytes} {start target : Nat} {range : ByteRange}
    (member : range ∈ plan d data start target) :
    (∃ part ∈ plan d data start 1, part.start = range.start) ∧
      ∃ part ∈ plan d data start 1, part.stop = range.stop := by
  have ranges := tiles_plan d data start target
  have parts := tiles_plan d data start 1
  have stops {range : ByteRange} (member : range ∈ plan d data start target) :
      ∃ part ∈ plan d data start 1, part.stop = range.stop := by
    rcases (coarsens_plan d data start target).exists_stop member with here | found
    · have := ranges.bounds member
      omega
    · exact found
  refine ⟨?_, stops member⟩
  have bounds := ranges.bounds member
  rcases ranges.start_of_mem member with first | ⟨earlier, listed, same⟩
  · obtain ⟨part, found, begins⟩ := parts.exists_start (by omega)
    exact ⟨part, found, begins.trans first.symm⟩
  · obtain ⟨part, found, ends⟩ := stops listed
    rcases parts.stop_of_mem found with last | ⟨next, behind, begins⟩
    · omega
    · exact ⟨next, behind, begins.trans (ends.trans same)⟩

/-! ## Segments -/

theorem group_one {all : List Extent} (filled : ∀ extent ∈ all, 0 < extent.bytes.length) :
    group 1 [] all = all.map ([·]) := by
  induction all with
  | nil => rfl
  | cons extent later ih =>
      have reached : 0 < extentSize ([] ++ [extent]) := by
        simpa [extentSize, Extent.bytes] using filled extent (List.mem_cons_self ..)
      rw [group, if_pos (Nat.succ_le_of_lt reached),
        ih fun other member => filled other (List.mem_cons_of_mem _ member)]
      rfl

theorem rangesFrom_extents (start : Nat) (all : List Extent) :
    rangesFrom start ((all.map ([·])).map extentSize) =
      (List.range all.length).map fun k =>
        ⟨start + extentSize (all.take k), start + extentSize (all.take (k + 1))⟩ := by
  induction all generalizing start with
  | nil => rfl
  | cons extent later ih =>
      rw [List.map_cons, List.map_cons, rangesFrom, ih, List.length_cons, List.range_succ_eq_map,
        List.map_cons, List.map_map]
      refine congrArg₂ _ ?_ (List.map_congr_left fun k _ => ?_)
      · simp [extentSize]
      · simp [extentSize, Nat.add_assoc]

/-- The finest plan has one range for each segment that a call of the decoder takes. -/
theorem plan_segments {d : Dialect} (accepted : d.Accepted) (data : Bytes) (start : Nat) :
    let origin := min start data.length
    let decoder := Decoder.ofBytes (data.drop origin)
    ∃ n, (∀ k, decoder.nthCall d k = none ↔ n ≤ k) ∧
      ∀ least ≤ 1, plan d data start least = (List.range n).map fun k =>
        ⟨origin + (decoder.afterCalls d k).offset,
          origin + (decoder.afterCalls d (k + 1)).offset⟩ := by
  intro origin decoder
  have are := areExtents_extents d (lines (data.drop origin))
  have whole := flatten_extents d (lines (data.drop origin))
  have planned (least : Nat) (small : least ≤ 1) : plan d data start least =
      rangesFrom origin
        ((group 1 [] (extents d (lines (data.drop origin)))).map extentSize) := by
    rw [plan_eq accepted, Nat.max_eq_right small]
  have physical : Physical (extents d (lines (data.drop origin))).flatten := by
    rw [whole]
    exact physical_lines _
  have from_lines : decoder = atLines (extents d (lines (data.drop origin))).flatten 1 0 := by
    rw [whole]
    rfl
  generalize extents d (lines (data.drop origin)) = all at are planned physical from_lines
  have filled : ∀ extent ∈ all, 0 < extent.bytes.length := fun extent member =>
    List.length_pos_iff.mpr (are.bytes_ne_nil physical member)
  have behind (k : Nat) : (decoder.afterCalls d k).offset = extentSize (all.take k) := by
    rw [from_lines, afterCalls_extents are]
    exact Nat.zero_add _
  refine ⟨all.length, fun k => ?_, fun least small => ?_⟩
  · rw [from_lines, nthCall_extents are, Option.map_eq_none_iff, List.getElem?_eq_none_iff]
  · rw [planned least small, group_one filled, rangesFrom_extents]
    simp only [behind]

/--
With the least target a plan has the segments that calls of the decoder take.  With any target it
tiles the data behind its start, and each range begins and ends where segments do; every
range but the last reaches the target, and none reaches it with a segment before its last.
-/
theorem plan_coarsens {d : Dialect} (accepted : d.Accepted) (data : Bytes) (start target : Nat) :
    let origin := min start data.length
    let decoder := Decoder.ofBytes (data.drop origin)
    let parts := plan d data start 1
    let ranges := plan d data start target
    (∃ n, (∀ k, decoder.nthCall d k = none ↔ n ≤ k) ∧
      ∀ least ≤ 1, plan d data start least = (List.range n).map fun k =>
        ⟨origin + (decoder.afterCalls d k).offset,
          origin + (decoder.afterCalls d (k + 1)).offset⟩) ∧
    Tiles origin data.length ranges ∧
    (ranges.map (·.slice data)).flatten = data.drop origin ∧
    (ranges = [] ↔ data.drop origin = []) ∧
    (∀ range ∈ ranges,
      (∃ part ∈ parts, part.start = range.start) ∧ ∃ part ∈ parts, part.stop = range.stop) ∧
    (∀ range ∈ ranges.dropLast, max target 1 ≤ range.size) ∧
    ∀ range ∈ ranges, ∀ part ∈ parts,
      range.start < part.stop → part.stop < range.stop →
        part.stop - range.start < max target 1 := by
  intro origin decoder parts ranges
  have tiles : Tiles origin data.length ranges := tiles_plan d data start target
  have coarsens : Coarsens (max target 1) origin origin parts ranges :=
    coarsens_plan d data start target
  refine ⟨plan_segments accepted data start, tiles, tiles.flatten_slice_drop, ?_,
    fun range => ends_of_mem_plan, fun range => coarsens.le_size,
    fun range member part listed => ?_⟩
  · rw [tiles.eq_nil_iff, List.drop_eq_nil_iff]
    exact ⟨fun same => same ▸ Nat.le_refl _, Nat.le_antisymm tiles.le⟩
  · exact coarsens.lt_target (Nat.le_refl origin) member listed

/-- Two lines and a quote that is never closed, with a target between one line and two. -/
theorem plan_coarsens_openQuote :
    let data : Bytes := [97, 10, 98, 10, 34, 99, 10, 100]
    let decoder := Decoder.ofBytes data
    Dialect.Accepted {} ∧ plan {} data 0 3 = [⟨0, 4⟩, ⟨4, 8⟩] ∧
      (∃ n, (∀ k, decoder.nthCall {} k = none ↔ n ≤ k) ∧
        [⟨0, 2⟩, ⟨2, 4⟩, ⟨4, 8⟩] = (List.range n).map fun k =>
          (⟨0 + (decoder.afterCalls {} k).offset, 0 + (decoder.afterCalls {} (k + 1)).offset⟩ :
            ByteRange)) ∧
      max 3 1 ≤ (ByteRange.mk 0 4).size ∧ 2 - 0 < max 3 1 := by
  intro data decoder
  have parts : plan {} data 0 1 = [⟨0, 2⟩, ⟨2, 4⟩, ⟨4, 8⟩] := by decide
  have ranges : plan {} data 0 3 = [⟨0, 4⟩, ⟨4, 8⟩] := by decide
  obtain ⟨⟨n, ended, segments⟩, -, -, -, -, reached, least⟩ :=
    plan_coarsens Dialect.accepted_default data 0 3
  rw [ranges] at reached least
  rw [parts] at least
  have taken := segments 1 (Nat.le_refl 1)
  rw [parts] at taken
  refine ⟨Dialect.accepted_default, ranges, ⟨n, ended, taken⟩, ?_, ?_⟩
  · exact reached ⟨0, 4⟩ (List.mem_singleton.mpr rfl)
  · exact least ⟨0, 4⟩ (by simp) ⟨0, 2⟩ (by simp) (by decide) (by decide)

end Chunk

end CsvImport
