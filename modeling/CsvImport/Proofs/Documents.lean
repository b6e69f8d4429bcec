import CsvImport.Document.Writer
import CsvImport.Proofs.TextBytes

/-!
# Documents and line feeds

Every document is one line: strings are escaped, so that the only control character of a
line is the line feed at its end.
-/

namespace CsvImport

namespace Utf8

theorem utf8EncodeChar_ascii {c : Char} (ascii : c.toNat < 128) :
    String.utf8EncodeChar c = [UInt8.ofNat c.toNat] := by
  unfold String.utf8EncodeChar
  exact if_pos (Nat.le_of_lt_succ ascii)

theorem high_of_mem_utf8EncodeChar {c : Char} (high : 128 ≤ c.toNat) {b : UInt8}
    (member : b ∈ String.utf8EncodeChar c) : 128 ≤ b.toNat := by
  have beyond {n : Nat} (above : 128 ≤ n) (byte : n < 256) : 128 ≤ (UInt8.ofNat n).toNat := by
    rwa [toNat_ofNat byte]
  unfold String.utf8EncodeChar at member
  simp only at member
  split at member
  · exact absurd high (Nat.not_le.mpr (Nat.lt_succ_of_le ‹_›))
  · split at member
    · simp only [List.mem_cons, List.not_mem_nil, or_false] at member
      rcases member with rfl | rfl <;> exact beyond (by omega) (by omega)
    · split at member
      · simp only [List.mem_cons, List.not_mem_nil, or_false] at member
        rcases member with rfl | rfl | rfl <;> exact beyond (by omega) (by omega)
      · simp only [List.mem_cons, List.not_mem_nil, or_false] at member
        rcases member with rfl | rfl | rfl | rfl <;> exact beyond (by omega) (by omega)

/-- A character has a line feed among its bytes if it is the line feed. -/
theorem count_utf8EncodeChar (c : Char) :
    (String.utf8EncodeChar c).count Bytes.lf = if c = '\n' then 1 else 0 := by
  by_cases ascii : c.toNat < 128
  · have same : UInt8.ofNat c.toNat = Bytes.lf ↔ c = '\n' := by
      rw [← UInt8.toNat_inj, toNat_ofNat (by omega), Char.ext_iff, ← UInt32.toNat_inj]
      rfl
    rw [utf8EncodeChar_ascii ascii, List.count_singleton]
    simp only [beq_iff_eq, same]
  · have other : c ≠ '\n' := by
      rintro rfl
      exact ascii (by decide)
    rw [if_neg other, List.count_eq_zero]
    intro member
    exact absurd (high_of_mem_utf8EncodeChar (Nat.le_of_not_lt ascii) member) (by decide)

/-- The line feeds of a text are those of its bytes. -/
theorem lineFeeds_encode (text : String) :
    Bytes.lineFeeds (encode text) = text.toList.count '\n' := by
  unfold encode Bytes.lineFeeds
  induction text.toList with
  | nil => rfl
  | cons c later ih =>
      rw [List.flatMap_cons, List.count_append, count_utf8EncodeChar, List.count_cons, ih,
        Nat.add_comm]
      simp only [beq_iff_eq]

/-- The bytes of a text without control characters are no control characters. -/
theorem printed_of_mem_encode {text : String} (printed : ∀ c ∈ text.toList, 32 ≤ c.toNat)
    {b : UInt8} (member : b ∈ encode text) : 32 ≤ b.toNat := by
  obtain ⟨c, listed, inside⟩ := List.mem_flatMap.mp member
  by_cases ascii : c.toNat < 128
  · rw [utf8EncodeChar_ascii ascii] at inside
    obtain rfl := List.mem_singleton.mp inside
    rw [toNat_ofNat (by omega)]
    exact printed c listed
  · exact Nat.le_trans (by decide) (high_of_mem_utf8EncodeChar (Nat.le_of_not_lt ascii) inside)

end Utf8

namespace Json

theorem printed_lower : ∀ n < 16, 32 ≤ (Hex.lower n).toNat := by
  decide

theorem printed_of_mem_escape {c e : Char} (member : e ∈ escape c) : 32 ≤ e.toNat := by
  have all {chars : List Char} (found : e ∈ chars)
      (printed : (chars.all fun c => decide (32 ≤ c.toNat)) = true) : 32 ≤ e.toNat :=
    of_decide_eq_true (List.all_eq_true.mp printed e found)
  unfold escape at member
  repeat' split at member
  · exact all member rfl
  · exact all member rfl
  · exact all member rfl
  · exact all member rfl
  · exact all member rfl
  · exact all member rfl
  · exact all member rfl
  · have high := printed_lower (c.toNat / 16) (by omega)
    have low := printed_lower (c.toNat % 16) (by omega)
    apply all member
    simp [high, low]
  · rename_i printed
    rw [List.mem_singleton.mp member]
    exact Nat.le_of_not_lt printed

theorem printed_of_mem_quote {text : String} {c : Char} (member : c ∈ quote text) :
    32 ≤ c.toNat := by
  unfold quote at member
  simp only [List.mem_cons, List.mem_append, List.mem_flatMap, List.not_mem_nil,
    or_false] at member
  rcases member with rfl | ⟨escaped, _, inside⟩ | rfl
  · decide
  · exact printed_of_mem_escape inside
  · decide

/-- Objects are written without control characters if their values are. -/
theorem printed_of_mem_renderMembers {members : List (String × Value)}
    (values : ∀ member ∈ members, ∀ c ∈ renderChars member.2, 32 ≤ c.toNat) {c : Char}
    (inside : c ∈ renderMembers members) : 32 ≤ c.toNat := by
  induction members with
  | nil => cases inside
  | cons member later ih =>
      have value := values member (List.mem_cons_self ..) c
      have rest := ih fun other listed => values other (List.mem_cons_of_mem _ listed)
      cases later with
      | nil =>
          simp only [renderMembers, List.mem_append, List.mem_cons] at inside
          rcases inside with name | rfl | inside
          · exact printed_of_mem_quote name
          · decide
          · exact value inside
      | cons next more =>
          rw [renderMembers] at inside
          · simp only [List.mem_append, List.mem_cons] at inside
            rcases inside with name | rfl | inside | rfl | inside
            · exact printed_of_mem_quote name
            · decide
            · exact value inside
            · decide
            · exact rest inside
          · exact List.cons_ne_nil _ _

theorem printed_of_mem_object {members : List (String × Value)}
    (values : ∀ member ∈ members, ∀ c ∈ renderChars member.2, 32 ≤ c.toNat) {c : Char}
    (inside : c ∈ (render (.object members)).toList) : 32 ≤ c.toNat := by
  rw [render, String.toList_ofList, renderChars] at inside
  simp only [List.mem_append, List.mem_cons, List.not_mem_nil, or_false] at inside
  rcases inside with rfl | inside | rfl
  · decide
  · exact printed_of_mem_renderMembers values inside
  · decide

end Json

namespace Document

/-- No control character stands in front of the line feed of a document. -/
theorem printed_of_mem_render (doc : Document) {c : Char}
    (inside : c ∈ (Json.render doc.toJson).toList) : 32 ≤ c.toNat := by
  refine Json.printed_of_mem_object (fun member listed c escaped => ?_) inside
  obtain ⟨field, _, rfl⟩ := List.mem_map.mp listed
  exact Json.printed_of_mem_quote escaped

theorem lineFeeds_line (doc : Document) : Bytes.lineFeeds (Utf8.encode doc.line) = 1 := by
  have none : '\n' ∉ (Json.render doc.toJson).toList :=
    fun inside => absurd (doc.printed_of_mem_render inside) (by decide)
  rw [Utf8.lineFeeds_encode, line, String.toList_append, List.count_append,
    List.count_eq_zero.mpr none]
  rfl

end Document

end CsvImport
