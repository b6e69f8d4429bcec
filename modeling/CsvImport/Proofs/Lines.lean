import CsvImport.Bytes
import Mathlib.Data.List.Basic

/-!
# Physical lines

The shape of the lines that a byte string is cut into: every line but the last ends
with its only line feed.  A list of that shape is what its bytes are cut into again, and
so are its parts, which is how records and chunks made of lines can be read on their own.
-/

namespace CsvImport

namespace Bytes

/-- Lists of physical lines: only the last line may lack its line feed. -/
inductive Physical : List Bytes → Prop where
  | nil : Physical []
  | last {line : Bytes} (nonempty : line ≠ []) (free : lf ∉ line) : Physical [line]
  | cons {body : Bytes} (free : lf ∉ body) {later : List Bytes} (rest : Physical later) :
      Physical ((body ++ [lf]) :: later)

theorem lines_cons_lf (later : Bytes) : lines (lf :: later) = [lf] :: lines later := by
  simp [lines]

/-- A byte that is no line feed stands at the front of the first line. -/
theorem lines_cons_ne {b : UInt8} (notLf : b ≠ lf) (later : Bytes) :
    lines (b :: later) = (b :: (lines later).headD []) :: (lines later).tail := by
  rw [lines, if_neg notLf]
  cases lines later <;> rfl

/-- Bytes up to a line feed are the first line. -/
theorem lines_body {body : Bytes} (free : lf ∉ body) (later : Bytes) :
    lines (body ++ lf :: later) = (body ++ [lf]) :: lines later := by
  induction body with
  | nil => exact lines_cons_lf later
  | cons b body ih =>
      have notLf : b ≠ lf := (List.ne_of_not_mem_cons free).symm
      rw [List.cons_append, lines_cons_ne notLf, ih (List.not_mem_of_not_mem_cons free)]
      rfl

/-- Bytes without a line feed are one line. -/
theorem lines_unended {line : Bytes} (nonempty : line ≠ []) (free : lf ∉ line) :
    lines line = [line] := by
  induction line with
  | nil => exact absurd rfl nonempty
  | cons b line ih =>
      have notLf : b ≠ lf := (List.ne_of_not_mem_cons free).symm
      rw [lines_cons_ne notLf]
      cases line with
      | nil => rfl
      | cons next more =>
          rw [ih (List.cons_ne_nil next more) (List.not_mem_of_not_mem_cons free)]
          rfl

theorem physical_lines (bytes : Bytes) : Physical (lines bytes) := by
  induction bytes with
  | nil => exact .nil
  | cons b later ih =>
      by_cases isLf : b = lf
      · subst isLf
        rw [lines_cons_lf]
        change Physical (([] ++ [lf]) :: lines later)
        exact .cons List.not_mem_nil ih
      · rw [lines_cons_ne isLf]
        generalize lines later = cut at ih
        cases ih with
        | nil => exact .last (by simp) (by simpa using Ne.symm isLf)
        | last nonempty free => exact .last (by simp) (by simpa using ⟨Ne.symm isLf, free⟩)
        | @cons body free more rest =>
            change Physical ((b :: body ++ [lf]) :: more)
            exact .cons (by simpa using ⟨Ne.symm isLf, free⟩) rest

namespace Physical

/-- The bytes of physical lines are cut into these lines again. -/
theorem lines_flatten {lines : List Bytes} (physical : Physical lines) :
    Bytes.lines lines.flatten = lines := by
  induction physical with
  | nil => rfl
  | last nonempty free => simpa using lines_unended nonempty free
  | cons free rest ih =>
      rw [List.flatten_cons, List.append_assoc, List.singleton_append, lines_body free, ih]

theorem ne_nil {lines : List Bytes} (physical : Physical lines) {line : Bytes}
    (member : line ∈ lines) : line ≠ [] := by
  induction physical with
  | nil => cases member
  | last nonempty free =>
      obtain rfl := List.mem_singleton.mp member
      exact nonempty
  | cons free rest ih =>
      rcases List.mem_cons.mp member with rfl | member
      · simp
      · exact ih member

theorem tail {line : Bytes} {later : List Bytes} (physical : Physical (line :: later)) :
    Physical later := by
  cases physical with
  | last nonempty free => exact .nil
  | cons free rest => exact rest

/-- The lines before some of the lines are physical lines. -/
theorem left {first later : List Bytes} (physical : Physical (first ++ later)) :
    Physical first := by
  induction first with
  | nil => exact .nil
  | cons line first ih =>
      rw [List.cons_append] at physical
      generalize whole : first ++ later = rest at physical
      cases physical with
      | last nonempty free =>
          obtain ⟨rfl, rfl⟩ := List.append_eq_nil_iff.mp whole
          exact .last nonempty free
      | cons free rest =>
          subst whole
          exact .cons free (ih rest)

/-- The lines behind some of the lines are physical lines. -/
theorem right {first later : List Bytes} (physical : Physical (first ++ later)) :
    Physical later := by
  induction first with
  | nil => exact physical
  | cons line first ih => exact ih physical.tail

/-- Lines with more lines behind them hold one line feed each. -/
theorem lineFeeds_flatten {first later : List Bytes} (physical : Physical (first ++ later))
    (more : later ≠ []) : lineFeeds first.flatten = first.length := by
  induction first with
  | nil => rfl
  | cons line first ih =>
      rw [List.cons_append] at physical
      generalize whole : first ++ later = rest at physical
      cases physical with
      | last nonempty free => exact absurd (List.append_eq_nil_iff.mp whole).2 more
      | cons free rest =>
          subst whole
          have counted := ih rest
          unfold lineFeeds at counted ⊢
          simp only [List.flatten_cons, List.count_append, counted, List.count_singleton_self,
            List.count_eq_zero.mpr free, List.length_cons]
          omega

end Physical

/-! ## Whole lines -/

/-- Whether bytes are whole lines: nothing stands behind their last line feed. -/
def Whole (bytes : Bytes) : Prop :=
  ∀ b ∈ bytes.getLast?, b = lf

theorem whole_nil : Whole [] := by
  intro b member
  cases member

theorem Whole.tail {b : UInt8} {later : Bytes} (whole : Whole (b :: later)) : Whole later := by
  intro last member
  refine whole last ?_
  cases later with
  | nil => cases member
  | cons next more => rwa [List.getLast?_cons_cons]

/-- Lines behind whole lines are found without them. -/
theorem lines_append {front : Bytes} (whole : Whole front) (later : Bytes) :
    lines (front ++ later) = lines front ++ lines later := by
  induction front with
  | nil => rfl
  | cons b front ih =>
      by_cases isLf : b = lf
      · subst isLf
        rw [List.cons_append, lines_cons_lf, lines_cons_lf, ih whole.tail, List.cons_append]
      · rw [List.cons_append, lines_cons_ne isLf, lines_cons_ne isLf, ih whole.tail]
        cases front with
        | nil => exact absurd (whole b rfl) isLf
        | cons next more =>
            obtain ⟨line, others, cut⟩ : ∃ line others, lines (next :: more) = line :: others := by
              rw [lines]
              split
              · exact ⟨_, _, rfl⟩
              · split <;> exact ⟨_, _, rfl⟩
            rw [cut]
            rfl

theorem length_lines {bytes : Bytes} (whole : Whole bytes) :
    (lines bytes).length = lineFeeds bytes := by
  have physical := physical_lines (bytes ++ [cr])
  rw [lines_append whole] at physical
  have counted := physical.lineFeeds_flatten (by simp [lines, cr, lf])
  rw [flatten_lines] at counted
  exact counted.symm

end Bytes

end CsvImport
