import CsvImport.Proofs.Decimals
import CsvImport.Proofs.Objects

/-!
# The names of batches

The batches of a failure log have names of their own, which stores take as they stand.
-/

namespace CsvImport

namespace Key

def standsForItself (c : Char) : Bool :=
  c.toNat < 128 && isPlain (UInt8.ofNat c.toNat)

theorem escapeByte_char {c : Char} (plain : standsForItself c = true) :
    (String.utf8EncodeChar c).flatMap escapeByte = [c] := by
  simp only [standsForItself, Bool.and_eq_true, decide_eq_true_eq] at plain
  obtain ⟨ascii, plain⟩ := plain
  change isPlain (UInt8.ofNat c.val.toNat) = true at plain
  have small : c.val.toNat ≤ 127 := Nat.le_of_lt_succ ascii
  have value : (UInt8.ofNat c.val.toNat).toNat = c.val.toNat := by
    rw [UInt8.toNat_ofNat', Nat.mod_eq_of_lt (by omega)]
  unfold String.utf8EncodeChar
  simp only [small, ↓reduceIte, List.flatMap_singleton]
  unfold escapeByte
  rw [if_pos plain, value]
  exact congrArg (fun c => [c]) (Char.ofNat_toNat c)

/-- A name of such characters is a part as it stands. -/
theorem encodePart_plain {name : String} (plain : ∀ c ∈ name.toList, standsForItself c = true)
    (named : name ≠ "." ∧ name ≠ "..") : encodePart name = name := by
  have chars : (Utf8.encode name).flatMap escapeByte = name.toList := by
    unfold Utf8.encode
    rw [List.flatMap_assoc]
    generalize name.toList = chars at plain ⊢
    induction chars with
    | nil => rfl
    | cons c more ih =>
        rw [List.flatMap_cons, escapeByte_char (plain c (List.mem_cons_self ..)),
          ih fun other member => plain other (List.mem_cons_of_mem _ member)]
        rfl
  unfold encodePart
  rw [if_neg named.1, if_neg named.2, chars, String.ofList_toList]

theorem piecesOf_whole {chars : List Char} (whole : '/' ∉ chars) : piecesOf chars = [chars] := by
  induction chars with
  | nil => rfl
  | cons c more ih =>
      have other : c ≠ '/' := fun same => whole (by rw [same]; exact List.mem_cons_self ..)
      unfold piecesOf
      rw [if_neg other, ih fun member => whole (List.mem_cons_of_mem _ member)]

/-- A name of such characters is a key as it stands. -/
theorem ofText_plain {name : String} (plain : ∀ c ∈ name.toList, standsForItself c = true)
    (nonempty : name ≠ "") (named : name ≠ "." ∧ name ≠ "..") : ofText name = ⟨[name]⟩ := by
  have whole : '/' ∉ name.toList := fun member => absurd (plain _ member) (by decide)
  have some : name.toList ≠ [] := fun none => nonempty (String.toList_eq_nil_iff.mp none)
  unfold ofText
  rw [piecesOf_whole whole, List.filter_cons_of_pos (by simpa using some)]
  simp only [List.filter_nil, List.map_cons, List.map_nil, String.ofList_toList,
    encodePart_plain plain named]

end Key

namespace Timestamp

theorem standsForItself_digit {c : Char} (isDigit : c.isDigit = true) :
    Key.standsForItself c = true :=
  Decimal.of_isDigit (P := (Key.standsForItself · = true)) (by decide) isDigit

theorem isDigit_padded (width n : Nat) : ∀ c ∈ padded width n, c.isDigit = true := by
  intro c member
  unfold padded at member
  rcases List.mem_append.mp member with zero | digit
  · rw [List.eq_of_mem_replicate zero]
    rfl
  · exact Decimal.isDigit_toString n c digit

/-- The number can be told from its digits, however many zeros are in front. -/
theorem numberOf_padded (width n : Nat) : numberOf (padded width n) = n := by
  have zeros : ∀ amount, Nat.ofDigitChars 10 (List.replicate amount '0') 0 = 0 := by
    intro amount
    induction amount with
    | zero => rfl
    | succ amount ih =>
        rw [List.replicate_succ]
        exact ih
  change Nat.ofDigitChars 10 (padded width n) 0 = n
  unfold padded
  rw [Nat.ofDigitChars_append, zeros]
  exact Decimal.ofDigitChars_toString n

theorem padded_inj {width n m : Nat} (same : padded width n = padded width m) : n = m := by
  rw [← numberOf_padded width n, same, numberOf_padded]

theorem standsForItself_padded (width n : Nat) :
    ∀ c ∈ padded width n, Key.standsForItself c = true :=
  fun c member => standsForItself_digit (isDigit_padded width n c member)

/-- The compact form of a point in time needs no escapes. -/
theorem standsForItself_compactText (time : Timestamp) :
    ∀ c ∈ time.compactText.toList, Key.standsForItself c = true := by
  have year : ∀ year : Int, ∀ c ∈ yearText year, Key.standsForItself c = true := by
    intro year c member
    unfold yearText at member
    split at member
    · exact standsForItself_padded _ _ c member
    · split at member
      · rcases List.mem_cons.mp member with rfl | digit
        · decide
        · exact standsForItself_padded _ _ c digit
      · rcases List.mem_cons.mp member with rfl | digit
        · decide
        · exact standsForItself_padded _ _ c digit
  intro c member
  unfold compactText at member
  rw [String.toList_ofList] at member
  simp only [List.mem_append, List.mem_cons] at member
  rcases member with ((digit | digit) | digit) | rfl | (digit | digit) | digit
  · exact year _ c digit
  · exact standsForItself_padded _ _ c digit
  · exact standsForItself_padded _ _ c digit
  · decide
  · exact standsForItself_padded _ _ c digit
  · exact standsForItself_padded _ _ c digit
  · exact standsForItself_padded _ _ c digit

end Timestamp

namespace FailureLog

variable {log : FailureLog} {now : Timestamp}

/-- Every batch has a name of its own. -/
theorem batchName_inj {batch other : Nat} : log.batchName batch = log.batchName other ↔
    batch = other := by
  constructor
  · intro same
    have chars := congrArg String.toList same
    unfold batchName at chars
    simp only [String.toList_append, String.toList_ofList] at chars
    exact Timestamp.padded_inj (List.append_cancel_left (List.append_cancel_right chars))
  · rintro rfl
    rfl

theorem batchName_congr {other : FailureLog} (stem : log.stem = other.stem) (batch : Nat) :
    log.batchName batch = other.batchName batch := by
  unfold batchName
  rw [stem]

/-- The names of batches need no escapes. -/
theorem standsForItself_batchName (stem : log.stem = stemAt now) (batch : Nat) :
    ∀ c ∈ (log.batchName batch).toList, Key.standsForItself c = true := by
  intro c member
  unfold batchName at member
  rw [stem, stemAt] at member
  simp only [String.toList_append, String.toList_ofList, List.mem_append] at member
  have literal : ∀ c ∈ "failures-".toList ++ "-".toList ++ ".ndjson".toList,
      Key.standsForItself c = true := List.all_eq_true.mp (by decide)
  rcases member with ((((known | time) | known) | digit) | known)
  · exact literal c (List.mem_append_left _ (List.mem_append_left _ known))
  · exact now.standsForItself_compactText c time
  · exact literal c (List.mem_append_left _ (List.mem_append_right _ known))
  · exact Timestamp.standsForItself_padded _ _ c digit
  · exact literal c (List.mem_append_right _ known)

/-- The name of a batch is a key as it stands. -/
theorem plain_batchName (stem : log.stem = stemAt now) (batch : Nat) :
    Key.Plain (log.batchName batch) := by
  have first : (log.batchName batch).toList.head? = some 'f' := by
    unfold batchName
    rw [stem, stemAt]
    simp only [String.toList_append]
    rfl
  have other : ∀ text : String, text.toList.head? ≠ some 'f' → log.batchName batch ≠ text :=
    fun text differs same => differs (by rw [← same, first])
  have dots := other ".." (by decide)
  refine ⟨Key.ofText_plain (standsForItself_batchName stem batch) ?_ ⟨?_, dots⟩, dots⟩
  · exact other "" (by decide)
  · exact other "." (by decide)

end FailureLog

end CsvImport
