/-!
# Decimal numbers

The digits that a number is written with, and the number that they write.
-/

namespace CsvImport

namespace Decimal

/-- What holds of the ten digits holds of every character that is a digit. -/
theorem of_isDigit {P : Char → Prop} (holds : ∀ n < 10, P (Char.ofNat (48 + n))) {c : Char}
    (isDigit : c.isDigit = true) : P c := by
  have range : 48 ≤ c.toNat ∧ c.toNat ≤ 57 := by
    rw [Char.isDigit, Bool.and_eq_true, decide_eq_true_eq, decide_eq_true_eq] at isDigit
    exact ⟨UInt32.le_iff_toNat_le.mp isDigit.1, UInt32.le_iff_toNat_le.mp isDigit.2⟩
  have same := holds (c.toNat - 48) (by omega)
  rwa [Nat.add_sub_cancel' range.1, Char.ofNat_toNat] at same

theorem toList_toString (n : Nat) : (toString n).toList = Nat.toDigits 10 n := by
  rw [Nat.toString_eq_ofList_toDigits, String.toList_ofList]

theorem isDigit_toString (n : Nat) : ∀ c ∈ (toString n).toList, c.isDigit = true := by
  intro c member
  rw [toList_toString] at member
  exact Nat.isDigit_of_mem_toDigits (by decide) (by decide) member

/-- What is no digit does not stand in a number. -/
theorem not_mem_toString {c : Char} (other : c.isDigit = false) (n : Nat) :
    c ∉ (toString n).toList := by
  intro member
  rw [isDigit_toString n c member] at other
  cases other

theorem toString_ne_nil (n : Nat) : (toString n).toList ≠ [] := by
  rw [toList_toString]
  exact Nat.toDigits_ne_nil

theorem ofDigitChars_toString (n : Nat) : Nat.ofDigitChars 10 (toString n).toList 0 = n := by
  rw [toList_toString]
  exact Nat.ofDigitChars_ten_toDigits

theorem toString_inj {n m : Nat} (same : (toString n).toList = (toString m).toList) : n = m := by
  rw [← ofDigitChars_toString n, same, ofDigitChars_toString]

end Decimal

end CsvImport
