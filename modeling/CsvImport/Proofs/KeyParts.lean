import CsvImport.Proofs.Paths
import CsvImport.Proofs.TextBytes

/-!
# Parts of keys

The escapes in a part of a key can be undone.  So a part tells the text that it was made of, which
it is itself if all characters stand for themselves, and a key tells the segments of its path,
however they are spread over a base and a path behind it.
-/

namespace CsvImport

namespace Key

def unescape : List Char → Bytes
  | [] => []
  | '%' :: high :: low :: rest =>
      UInt8.ofNat ((Hex.value? high).getD 0 * 16 + (Hex.value? low).getD 0) :: unescape rest
  | c :: rest => UInt8.ofNat c.toNat :: unescape rest

theorem unescape_plain {c : Char} (plain : c ≠ '%') (rest : List Char) :
    unescape (c :: rest) = UInt8.ofNat c.toNat :: unescape rest := by
  rw [unescape]
  intro high low more same
  exact absurd same plain

/-- A byte that stands for itself is no percent sign. -/
theorem of_isPlain {b : UInt8} (plain : isPlain b = true) :
    Char.ofNat b.toNat ≠ '%' ∧ (Char.ofNat b.toNat).toNat = b.toNat := by
  simp only [isPlain, Bool.and_eq_true, decide_eq_true_eq, Bool.not_eq_true'] at plain
  obtain ⟨⟨-, ascii⟩, free⟩ := plain
  have small : b.toNat < 127 := ascii
  constructor
  · intro same
    rw [same] at free
    revert free
    decide
  · have valid : b.toNat.isValidChar := .inl (by omega)
    rw [Char.ofNat, dif_pos valid]
    rfl

theorem value?_upper : ∀ n < 16, Hex.value? (Hex.upper n) = some n := by
  decide

/-- Every byte is read back, whether it stands for itself or not. -/
theorem unescape_escapeByte (b : UInt8) (rest : List Char) :
    unescape (escapeByte b ++ rest) = b :: unescape rest := by
  have small : b.toNat < 256 := b.toNat_lt
  unfold escapeByte
  split
  · rename_i plain
    obtain ⟨other, same⟩ := of_isPlain plain
    rw [List.singleton_append, unescape_plain other, same, UInt8.ofNat_toNat]
  · have high := value?_upper (b.toNat / 16) (by omega)
    have low := value?_upper (b.toNat % 16) (by omega)
    rw [List.cons_append, List.cons_append, List.singleton_append, unescape, high, low]
    simp only [Option.getD_some, Nat.div_add_mod', UInt8.ofNat_toNat]

theorem unescape_flatMap (bytes : Bytes) : unescape (bytes.flatMap escapeByte) = bytes := by
  induction bytes with
  | nil => rfl
  | cons b rest ih => rw [List.flatMap_cons, unescape_escapeByte, ih]

/-- The dots that are written as escapes are read back as well. -/
theorem unescape_encodePart (text : String) :
    unescape (encodePart text).toList = Utf8.encode text := by
  unfold encodePart
  split
  · rename_i same
    rw [same]
    decide
  · split
    · rename_i same
      rw [same]
      decide
    · rw [String.toList_ofList, unescape_flatMap]

/-- Different texts make different parts. -/
theorem encodePart_injective : Function.Injective encodePart := by
  intro first second same
  have bytes : Utf8.encode first = Utf8.encode second := by
    rw [← unescape_encodePart first, same, unescape_encodePart]
  have texts := congrArg Utf8.decode? bytes
  rw [Utf8.decode?_encode, Utf8.decode?_encode] at texts
  exact Option.some.inj texts

/-! ## Parts as they stand -/

theorem standsForItself_of_isPlain {b : UInt8} (plain : isPlain b = true) :
    standsForItself (Char.ofNat b.toNat) = true := by
  have small : b.toNat < 127 := by
    simp only [isPlain, Bool.and_eq_true, decide_eq_true_eq] at plain
    exact plain.1.2
  unfold standsForItself
  rw [(of_isPlain plain).2, UInt8.ofNat_toNat, plain, Bool.and_true, decide_eq_true_eq]
  omega

/-- Bytes are written as no more characters than they are only if each stands for itself. -/
theorem isPlain_of_length_le {bytes : Bytes}
    (short : (bytes.flatMap escapeByte).length ≤ bytes.length) :
    ∀ b ∈ bytes, isPlain b = true := by
  have atLeast (bytes : Bytes) : bytes.length ≤ (bytes.flatMap escapeByte).length := by
    induction bytes with
    | nil => exact Nat.le_refl 0
    | cons b rest ih =>
        have one : 1 ≤ (escapeByte b).length := by
          unfold escapeByte
          split <;> simp
        rw [List.flatMap_cons, List.length_append, List.length_cons]
        omega
  induction bytes with
  | nil => exact nofun
  | cons b rest ih =>
      have others := atLeast rest
      rw [List.flatMap_cons, List.length_append, List.length_cons] at short
      intro c member
      by_cases plain : isPlain b = true
      · rw [escapeByte, if_pos plain, List.length_singleton] at short
        rcases List.mem_cons.mp member with rfl | later
        · exact plain
        · exact ih (by omega) c later
      · rw [escapeByte, if_neg plain] at short
        simp only [List.length_cons, List.length_nil] at short
        omega

theorem length_le_encode (text : String) : text.toList.length ≤ (Utf8.encode text).length := by
  unfold Utf8.encode
  induction text.toList with
  | nil => exact Nat.le_refl 0
  | cons c rest ih =>
      have one : 1 ≤ (String.utf8EncodeChar c).length := by
        rw [String.length_utf8EncodeChar]
        exact c.utf8Size_pos
      rw [List.flatMap_cons, List.length_append, List.length_cons]
      omega

/-- A name is a part as it stands just if all of its characters stand for themselves. -/
theorem encodePart_eq_self_iff {name : String} (named : name ≠ "." ∧ name ≠ "..") :
    encodePart name = name ↔ ∀ c ∈ name.toList, standsForItself c = true := by
  refine ⟨fun same c member => ?_, fun plain => encodePart_plain plain named⟩
  have chars : (Utf8.encode name).flatMap escapeByte = name.toList := by
    rw [encodePart, if_neg named.1, if_neg named.2] at same
    rw [← congrArg String.toList same, String.toList_ofList]
  have plain := isPlain_of_length_le (chars ▸ length_le_encode name)
  rw [← chars] at member
  obtain ⟨b, inside, written⟩ := List.mem_flatMap.mp member
  rw [escapeByte, if_pos (plain b inside), List.mem_singleton] at written
  rw [written]
  exact standsForItself_of_isPlain (plain b inside)

/-! ## Segments -/

/-- What stands between the slashes of a text, where it is not empty. -/
def segmentsOf (text : String) : List String :=
  ((piecesOf text.toList).filter (· ≠ [])).map String.ofList

def ofSegments (segments : List String) : Key :=
  ⟨segments.map encodePart⟩

theorem ofText_eq (text : String) : ofText text = ofSegments (segmentsOf text) := by
  unfold ofText ofSegments segmentsOf
  rw [List.map_map]
  rfl

theorem ofSegments_append (first later : List String) :
    ofSegments first ++ ofSegments later = ofSegments (first ++ later) := by
  unfold ofSegments
  rw [List.map_append]
  rfl

theorem ofSegments_inj {first second : List String} :
    ofSegments first = ofSegments second ↔ first = second := by
  unfold ofSegments
  rw [Key.mk.injEq, (List.map_injective_iff.mpr encodePart_injective).eq_iff]

theorem segmentsOf_append (first later : String) :
    segmentsOf (first ++ "/" ++ later) = segmentsOf first ++ segmentsOf later := by
  have chars : (first ++ "/" ++ later).toList = first.toList ++ '/' :: later.toList := by
    rw [String.toList_append, String.toList_append, List.append_assoc]
    rfl
  unfold segmentsOf
  rw [chars, piecesOf_append_slash, List.filter_append, List.map_append]

end Key

end CsvImport
