import CsvImport.Text.Utf8

/-!
# Texts and their bytes

The bytes of a text are read back as the text, both by the strict reader and by the lossy
one.
-/

namespace CsvImport

namespace Utf8

/-- A byte that is given as a number. -/
theorem toNat_ofNat {n : Nat} (byte : n < 256) : (UInt8.ofNat n).toNat = n := by
  rw [UInt8.toNat_ofNat', Nat.mod_eq_of_lt byte]

/-- A continuation byte in its range goes on with the sequence. -/
theorem step_inside {seq : Open} {n : Nat} (byte : n < 256) (above : seq.low.toNat ≤ n)
    (below : n ≤ seq.high.toNat) :
    step (.inside seq) (UInt8.ofNat n) =
      if seq.missing = 1 then (.between, [.char (Char.ofNat (seq.value * 64 + (n - 0x80)))])
      else (.inside ⟨seq.value * 64 + (n - 0x80), seq.missing - 1, 0x80, 0xBF⟩, []) := by
  have inRange : seq.low ≤ UInt8.ofNat n ∧ UInt8.ofNat n ≤ seq.high := by
    rw [UInt8.le_iff_toNat_le, UInt8.le_iff_toNat_le, toNat_ofNat byte]
    exact ⟨above, below⟩
  unfold step
  simp only [inRange, and_self, ↓reduceIte, toNat_ofNat byte]

/-- How a byte that is given as a number starts a character. -/
theorem start_ofNat {n : Nat} (byte : n < 256) :
    start (UInt8.ofNat n) =
      if n < 128 then (.between, [.char (Char.ofNat n)])
      else if 194 ≤ n ∧ n ≤ 223 then (.inside ⟨n - 192, 1, 0x80, 0xBF⟩, [])
      else if n = 224 then (.inside ⟨0, 2, 0xA0, 0xBF⟩, [])
      else if n = 237 then (.inside ⟨0xD, 2, 0x80, 0x9F⟩, [])
      else if 225 ≤ n ∧ n ≤ 239 then (.inside ⟨n - 224, 2, 0x80, 0xBF⟩, [])
      else if n = 240 then (.inside ⟨0, 3, 0x90, 0xBF⟩, [])
      else if 241 ≤ n ∧ n ≤ 243 then (.inside ⟨n - 240, 3, 0x80, 0xBF⟩, [])
      else if n = 244 then (.inside ⟨4, 3, 0x80, 0x8F⟩, [])
      else (.between, [.illFormed]) := by
  unfold start
  simp only [UInt8.lt_iff_toNat_lt, UInt8.le_iff_toNat_le, ← UInt8.toNat_inj, toNat_ofNat byte]
  rfl

/-- The last byte of a sequence completes its character. -/
theorem outputs_last {value n : Nat} {low high : UInt8} (byte : n < 256) (above : low.toNat ≤ n)
    (below : n ≤ high.toNat) (rest : Bytes) :
    outputs (.inside ⟨value, 1, low, high⟩) (UInt8.ofNat n :: rest) =
      .char (Char.ofNat (value * 64 + (n - 0x80))) :: outputs .between rest := by
  rw [outputs, step_inside byte above below, if_pos rfl]
  rfl

/-- Any other byte of a sequence leaves it open. -/
theorem outputs_more {value missing n : Nat} {low high : UInt8} (byte : n < 256)
    (above : low.toNat ≤ n) (below : n ≤ high.toNat) (rest : Bytes) :
    outputs (.inside ⟨value, missing + 2, low, high⟩) (UInt8.ofNat n :: rest) =
      outputs (.inside ⟨value * 64 + (n - 0x80), missing + 1, 0x80, 0xBF⟩) rest := by
  have more : missing + 2 ≠ 1 := by omega
  rw [outputs, step_inside byte above below, if_neg more]
  rfl

/-- The lowest and the highest continuation byte. -/
theorem continuation (n : Nat) :
    n % 64 + 128 < 256 ∧ UInt8.toNat 0x80 ≤ n % 64 + 128 ∧ n % 64 + 128 ≤ UInt8.toNat 0xBF := by
  change _ ∧ 128 ≤ _ ∧ _ ≤ 191
  omega

theorem outputs_start {n : Nat} {seq : Open} (started : start (UInt8.ofNat n) = (.inside seq, []))
    (rest : Bytes) :
    outputs .between (UInt8.ofNat n :: rest) = outputs (.inside seq) rest := by
  rw [outputs, step, started]
  rfl

/-- The first two of three bytes fit together. -/
theorem start_three {v : Nat} (large : 2047 < v) (small : v ≤ 65535)
    (valid : v < 0xD800 ∨ 0xDFFF < v) :
    ∃ low high, start (UInt8.ofNat (v / 4096 % 16 + 224)) = (.inside ⟨v / 4096, 2, low, high⟩, []) ∧
      low.toNat ≤ v / 64 % 64 + 128 ∧ v / 64 % 64 + 128 ≤ high.toNat := by
  rw [start_ofNat (by omega), if_neg (by omega), if_neg (by omega)]
  by_cases first : v / 4096 = 0
  · rw [if_pos (by omega)]
    refine ⟨0xA0, 0xBF, by rw [first], ?_, ?_⟩
    · change 160 ≤ _
      omega
    · change _ ≤ 191
      omega
  · rw [if_neg (by omega)]
    by_cases surrogates : v / 4096 = 13
    · rw [if_pos (by omega)]
      refine ⟨0x80, 0x9F, by rw [surrogates], ?_, ?_⟩
      · change 128 ≤ _
        omega
      · change _ ≤ 159
        omega
    · rw [if_neg (by omega), if_pos (by omega)]
      refine ⟨0x80, 0xBF, ?_, ?_, ?_⟩
      · have value : v / 4096 % 16 + 224 - 224 = v / 4096 := by omega
        rw [value]
      · change 128 ≤ _
        omega
      · change _ ≤ 191
        omega

/-- The first two of four bytes fit together. -/
theorem start_four {v : Nat} (large : 65535 < v) (small : v < 0x110000) :
    ∃ low high, start (UInt8.ofNat (v / 262144 % 8 + 240)) =
        (.inside ⟨v / 262144, 3, low, high⟩, []) ∧
      low.toNat ≤ v / 4096 % 64 + 128 ∧ v / 4096 % 64 + 128 ≤ high.toNat := by
  rw [start_ofNat (by omega), if_neg (by omega), if_neg (by omega), if_neg (by omega),
    if_neg (by omega), if_neg (by omega)]
  by_cases first : v / 262144 = 0
  · rw [if_pos (by omega)]
    refine ⟨0x90, 0xBF, by rw [first], ?_, ?_⟩
    · change 144 ≤ _
      omega
    · change _ ≤ 191
      omega
  · rw [if_neg (by omega)]
    by_cases last : v / 262144 = 4
    · rw [if_neg (by omega), if_pos (by omega)]
      refine ⟨0x80, 0x8F, by rw [last], ?_, ?_⟩
      · change 128 ≤ _
        omega
      · change _ ≤ 143
        omega
    · rw [if_pos (by omega)]
      refine ⟨0x80, 0xBF, ?_, ?_, ?_⟩
      · have value : v / 262144 % 8 + 240 - 240 = v / 262144 := by omega
        rw [value]
      · change 128 ≤ _
        omega
      · change _ ≤ 191
        omega

theorem outputs_char (c : Char) (rest : Bytes) :
    outputs .between (String.utf8EncodeChar c ++ rest) = .char c :: outputs .between rest := by
  have same : Char.ofNat c.val.toNat = c := Char.ofNat_toNat c
  have valid : c.val.toNat < 0xD800 ∨ 0xDFFF < c.val.toNat ∧ c.val.toNat < 0x110000 := c.valid
  unfold String.utf8EncodeChar
  simp only
  generalize c.val.toNat = v at same valid
  split
  · rw [List.singleton_append, outputs, step, start_ofNat (by omega), if_pos (by omega), same]
    rfl
  obtain ⟨lastByte, lastAbove, lastBelow⟩ := continuation v
  obtain ⟨thirdByte, thirdAbove, thirdBelow⟩ := continuation (v / 64)
  have secondByte := (continuation (v / 4096)).1
  split
  · have started : start (UInt8.ofNat (v / 64 % 32 + 192)) =
        (.inside ⟨v / 64, 1, 0x80, 0xBF⟩, []) := by
      have value : v / 64 % 32 + 192 - 192 = v / 64 := by omega
      rw [start_ofNat (by omega), if_neg (by omega), if_pos (by omega), value]
    have value : v / 64 * 64 + (v % 64 + 128 - 0x80) = v := by omega
    rw [List.cons_append, List.cons_append, outputs_start started,
      outputs_last lastByte lastAbove lastBelow, value, same]
    rfl
  split
  · obtain ⟨low, high, started, above, below⟩ := start_three (by omega) (by omega)
      (valid.imp_right And.left)
    have value : (v / 4096 * 64 + (v / 64 % 64 + 128 - 0x80)) * 64 + (v % 64 + 128 - 0x80) = v := by
      omega
    rw [List.cons_append, List.cons_append, List.cons_append, outputs_start started,
      outputs_more thirdByte above below, outputs_last lastByte lastAbove lastBelow, value, same]
    rfl
  · obtain ⟨low, high, started, above, below⟩ := start_four (v := v) (by omega) (by omega)
    have value : ((v / 262144 * 64 + (v / 4096 % 64 + 128 - 0x80)) * 64 +
        (v / 64 % 64 + 128 - 0x80)) * 64 + (v % 64 + 128 - 0x80) = v := by omega
    rw [List.cons_append, List.cons_append, List.cons_append, List.cons_append,
      outputs_start started, outputs_more secondByte above below,
      outputs_more thirdByte thirdAbove thirdBelow, outputs_last lastByte lastAbove lastBelow,
      value, same]
    rfl

theorem outputs_encode (chars : List Char) :
    outputs .between (chars.flatMap String.utf8EncodeChar) = chars.map .char := by
  induction chars with
  | nil => rfl
  | cons c more ih => rw [List.flatMap_cons, outputs_char, ih, List.map_cons]

theorem decodeLossy_encode (text : String) : decodeLossy (encode text) = text := by
  unfold decodeLossy encode
  rw [outputs_encode, List.map_map]
  change String.ofList (text.toList.map fun c => c) = text
  rw [List.map_id', String.ofList_toList]

theorem decode?_encode (text : String) : decode? (encode text) = some text := by
  have each : (text.toList.map Output.char).mapM Output.toChar? = some text.toList := by
    induction text.toList with
    | nil => rfl
    | cons c more ih =>
        rw [List.map_cons, List.mapM_cons, ih]
        rfl
  unfold decode? encode
  rw [outputs_encode, each, Option.map_some, String.ofList_toList]

theorem encode_append (first second : String) :
    encode (first ++ second) = encode first ++ encode second := by
  unfold encode
  rw [String.toList_append, List.flatMap_append]

end Utf8

end CsvImport
