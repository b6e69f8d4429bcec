import CsvImport.Proofs.Documents
import CsvImport.Proofs.Lines

/-!
# Whole characters

A character is one ASCII byte or several bytes beyond ASCII.  Where the bytes of a text are cut
beside an ASCII byte, what stands in front of it and what stands behind it are bytes of texts again,
and so is every physical line of a text.
-/

namespace CsvImport

namespace Utf8

def encodeChars (chars : List Char) : Bytes :=
  chars.flatMap String.utf8EncodeChar

theorem encodeChars_append (first later : List Char) :
    encodeChars (first ++ later) = encodeChars first ++ encodeChars later :=
  List.flatMap_append

theorem encodeChars_flatten (parts : List (List Char)) :
    encodeChars parts.flatten = (parts.map encodeChars).flatten := by
  induction parts with
  | nil => rfl
  | cons part later ih =>
      rw [List.flatten_cons, encodeChars_append, ih, List.map_cons, List.flatten_cons]

theorem encodeChars_eq_nil_iff {chars : List Char} : encodeChars chars = [] ↔ chars = [] := by
  cases chars with
  | nil => exact ⟨fun _ => rfl, fun _ => rfl⟩
  | cons c later =>
      have some : String.utf8EncodeChar c ≠ [] := by
        rw [← List.length_pos_iff, String.length_utf8EncodeChar]
        exact Char.utf8Size_pos c
      exact ⟨fun none => absurd (List.append_eq_nil_iff.mp none).1 some, nofun⟩

theorem encode_ofList (chars : List Char) : encode (String.ofList chars) = encodeChars chars := by
  rw [encode, String.toList_ofList, encodeChars]

/-- A character is one ASCII byte, or several bytes beyond ASCII. -/
theorem utf8EncodeChar_cases (c : Char) :
    (∃ b, b < 128 ∧ String.utf8EncodeChar c = [b]) ∨
      ∀ b ∈ String.utf8EncodeChar c, ¬b < 128 := by
  by_cases ascii : c.toNat < 128
  · refine .inl ⟨UInt8.ofNat c.toNat, ?_, utf8EncodeChar_ascii ascii⟩
    rw [UInt8.lt_iff_toNat_lt, toNat_ofNat (by omega)]
    exact ascii
  · refine .inr fun b member small => ?_
    have high := high_of_mem_utf8EncodeChar (Nat.le_of_not_lt ascii) member
    exact absurd (UInt8.lt_iff_toNat_lt.mp small) (Nat.not_lt.mpr high)

/-- An ASCII byte among the bytes of characters is one of the characters. -/
theorem encodeChars_cut {chars : List Char} {front behind : Bytes} {b : UInt8} (ascii : b < 128)
    (found : encodeChars chars = front ++ b :: behind) :
    ∃ first c later, chars = first ++ c :: later ∧ encodeChars first = front ∧
      encodeChars [c] = [b] ∧ encodeChars later = behind := by
  induction chars generalizing front with
  | nil => exact absurd found.symm (List.append_ne_nil_of_right_ne_nil _ (List.cons_ne_nil b _))
  | cons c chars ih =>
      have parts : String.utf8EncodeChar c ++ encodeChars chars = front ++ b :: behind := found
      -- The byte is the character `c` itself, or it stands behind all the bytes of `c`.
      rcases List.append_eq_append_iff.mp parts with ⟨more, rest, behindC⟩ | ⟨more, inC, rest⟩
      · obtain ⟨first, other, later, rfl, same, alone, tail⟩ := ih behindC
        refine ⟨c :: first, other, later, rfl, ?_, alone, tail⟩
        rw [rest, ← same]
        rfl
      · cases more with
        | nil =>
            rw [List.append_nil] at inC
            have behindC : encodeChars chars = [] ++ b :: behind := rest.symm
            obtain ⟨first, other, later, rfl, same, alone, tail⟩ := ih behindC
            refine ⟨c :: first, other, later, rfl, ?_, alone, tail⟩
            rw [← inC, ← List.append_nil (String.utf8EncodeChar c), ← same]
            rfl
        | cons next more =>
            obtain ⟨rfl, tail⟩ := List.cons.inj rest
            rcases utf8EncodeChar_cases c with ⟨only, small, bytes⟩ | high
            · rw [bytes] at inC
              obtain ⟨rfl, rfl, rfl⟩ : front = [] ∧ only = b ∧ more = [] := by
                cases front with
                | nil => exact ⟨rfl, (List.cons.inj inC).1, (List.cons.inj inC).2.symm⟩
                | cons x xs => simp at inC
              refine ⟨[], c, chars, rfl, rfl, ?_, tail.symm⟩
              rw [← bytes]
              exact List.flatMap_singleton ..
            · refine absurd ascii (high b ?_)
              rw [inC]
              exact List.mem_append_right _ (List.mem_cons_self ..)

end Utf8

namespace Bytes

open Utf8

/-- Physical lines that hold the bytes of characters hold some of the characters each. -/
theorem Physical.characters {lines : List Bytes} (physical : Physical lines) {chars : List Char}
    (found : encodeChars chars = lines.flatten) :
    ∃ parts : List (List Char), parts.flatten = chars ∧ parts.map encodeChars = lines := by
  induction physical generalizing chars with
  | nil =>
      obtain rfl := encodeChars_eq_nil_iff.mp found
      exact ⟨[], rfl, rfl⟩
  | last nonempty free =>
      refine ⟨[chars], List.flatten_singleton, ?_⟩
      rw [List.map_singleton, found, List.flatten_singleton]
  | @cons body free later rest ih =>
      rw [List.flatten_cons, List.append_assoc] at found
      obtain ⟨first, c, behind, rfl, front, alone, tail⟩ := encodeChars_cut (by decide) found
      obtain ⟨parts, rfl, same⟩ := ih tail
      refine ⟨(first ++ [c]) :: parts, ?_, ?_⟩
      · rw [List.flatten_cons, List.append_assoc]
        rfl
      · rw [List.map_cons, encodeChars_append, front, alone, same]

end Bytes

end CsvImport
