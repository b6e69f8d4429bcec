import CsvImport.Proofs.BatchNames
import CsvImport.Proofs.Calendar
import Mathlib.Algebra.GroupWithZero.Nat

/-!
# Reading a point in time that was written

The written form of a point in time is read back as the same point in time.
-/

namespace CsvImport

namespace Timestamp

/-- The time of day is on the clock, with a leap second only at the end of a minute, and the year
is one of the calendar. -/
structure Valid (time : Timestamp) : Prop where
  second : time.second < 86400
  nanos : time.nanos < nanosPerSecond ∨
    time.second % 60 = 59 ∧ time.nanos < 2 * nanosPerSecond
  year : yearRange.1 ≤ (CalendarDay.ofDays time.day).year ∧
    (CalendarDay.ofDays time.day).year ≤ yearRange.2

/-! ## Numbers -/

/-- What follows does not go on with digits. -/
def Stops (rest : List Char) : Prop :=
  ∀ c ∈ rest.head?, c.isDigit = false

theorem stops_cons {c : Char} (stops : c.isDigit = false) (rest : List Char) :
    Stops (c :: rest) := by
  rintro _ ⟨⟩
  exact stops

theorem length_padded {width n : Nat} (fits : n < 10 ^ width) (positive : 0 < width) :
    (padded width n).length = width := by
  have digits : (toString n).toList.length ≤ width := by
    rw [Decimal.toList_toString]
    exact (Nat.length_toDigits_le_iff (by decide) positive).mpr fits
  unfold padded
  rw [List.length_append, List.length_replicate, Nat.sub_add_cancel digits]

theorem padded_ne_nil (width n : Nat) : padded width n ≠ [] := by
  exact List.append_ne_nil_of_right_ne_nil _ (Decimal.toString_ne_nil n)

theorem padded_cons (width n : Nat) :
    ∃ c more, padded width n = c :: more ∧ c.isDigit = true := by
  have digits := isDigit_padded width n
  cases shown : padded width n with
  | nil => exact absurd shown (padded_ne_nil width n)
  | cons c more =>
      rw [shown] at digits
      exact ⟨c, more, rfl, digits c (List.mem_cons_self ..)⟩

theorem takeWhile_padded (width n : Nat) {rest : List Char} (stops : Stops rest) :
    (padded width n ++ rest).takeWhile Char.isDigit = padded width n := by
  rw [List.takeWhile_append_of_pos (isDigit_padded width n)]
  cases rest with
  | nil => exact List.append_nil _
  | cons c more =>
      rw [List.takeWhile_cons_of_neg (by simp [stops c rfl]), List.append_nil]

theorem dropWhile_padded (width n : Nat) {rest : List Char} (stops : Stops rest) :
    (padded width n ++ rest).dropWhile Char.isDigit = rest := by
  rw [List.dropWhile_append_of_pos (isDigit_padded width n)]
  cases rest with
  | nil => rfl
  | cons c more => exact List.dropWhile_cons_of_neg (by simp [stops c rfl])

/-- A number is read up to what is no digit. -/
theorem number?_padded {width n most : Nat} (fits : (padded width n).length ≤ most)
    {rest : List Char} (stops : Stops rest) :
    number? most (padded width n ++ rest) = some (n, rest) := by
  have front : (padded width n ++ rest).take most =
      padded width n ++ rest.take (most - (padded width n).length) := by
    rw [List.take_append, List.take_of_length_le fits]
  have stopped : Stops (rest.take (most - (padded width n).length)) := by
    intro c first
    rw [List.head?_take] at first
    split at first
    · cases first
    · exact stops c first
  unfold number?
  simp only [front, takeWhile_padded width n stopped]
  rw [if_neg (by simpa using padded_ne_nil width n), List.drop_left, numberOf_padded]

/-! ## White space -/

theorem isBlank_digit {c : Char} (isDigit : c.isDigit = true) : Text.isBlank c = false :=
  Decimal.of_isDigit (P := (Text.isBlank · = false)) (by decide) isDigit

theorem skipBlank_cons {c : Char} (printed : Text.isBlank c = false) (rest : List Char) :
    skipBlank (c :: rest) = c :: rest :=
  List.dropWhile_cons_of_neg (by simp [printed])

theorem skipBlank_padded (width n : Nat) (rest : List Char) :
    skipBlank (padded width n ++ rest) = padded width n ++ rest := by
  obtain ⟨c, more, shown, isDigit⟩ := padded_cons width n
  rw [shown]
  exact skipBlank_cons (isBlank_digit isDigit) _

theorem mark?_cons {mark : Char} (printed : Text.isBlank mark = false) (rest : List Char) :
    mark? mark (mark :: rest) = some rest := by
  unfold mark?
  rw [skipBlank_cons printed]
  exact if_pos rfl

/-! ## Fields -/

theorem field?_padded {low high n : Nat} (range : low ≤ n ∧ n ≤ high) (small : high < 100)
    {rest : List Char} (stops : Stops rest) :
    field? low high (padded 2 n ++ rest) = some (n, rest) := by
  have length : (padded 2 n).length = 2 := length_padded (by omega) (by decide)
  unfold field?
  rw [skipBlank_padded, number?_padded (Nat.le_of_eq length) stops]
  exact if_pos range

theorem year?_yearText (year : Int) {rest : List Char} (stops : Stops rest) :
    year? (yearText year ++ rest) = some (year, rest) := by
  unfold yearText
  by_cases short : 0 ≤ year ∧ year ≤ 9999
  · have length : (padded 4 year.toNat).length = 4 := length_padded (by omega) (by decide)
    have read := number?_padded (Nat.le_of_eq length) stops
    obtain ⟨c, more, shown, isDigit⟩ := padded_cons 4 year.toNat
    rw [if_pos short]
    unfold year?
    rw [skipBlank_padded]
    split
    · rename_i same
      rw [shown] at same
      obtain rfl := (List.cons.inj same).1
      cases isDigit
    · rename_i same
      rw [shown] at same
      obtain rfl := (List.cons.inj same).1
      cases isDigit
    · simp only [read, Option.map_some, Int.toNat_of_nonneg short.1]
  · have most : (padded 4 year.natAbs).length ≤ (padded 4 year.natAbs ++ rest).length := by
      rw [List.length_append]
      exact Nat.le_add_right _ _
    have read := number?_padded most stops
    rw [if_neg short]
    by_cases negative : year < 0
    · have value : -((year.natAbs : Nat) : Int) = year := by omega
      rw [if_pos negative, List.cons_append]
      unfold year?
      rw [skipBlank_cons (by decide)]
      simp only [read, Option.map_some, value]
    · have value : ((year.natAbs : Nat) : Int) = year := by omega
      rw [if_neg negative, List.cons_append]
      unfold year?
      rw [skipBlank_cons (by decide)]
      simp only [read, Option.map_some, value]

theorem fraction?_padded {width n : Nat} (fits : n < 10 ^ width) (positive : 0 < width)
    (kept : width ≤ 9) {rest : List Char} (stops : Stops rest) :
    fraction? ('.' :: (padded width n ++ rest)) = some (n * 10 ^ (9 - width), rest) := by
  have length := length_padded fits positive
  have whole : (padded width n).take 9 = padded width n :=
    List.take_of_length_le (by rw [length]; exact kept)
  unfold fraction?
  simp only [takeWhile_padded width n stops, whole, dropWhile_padded width n stops, length,
    numberOf_padded]
  exact if_neg (by simpa using padded_ne_nil width n)

theorem stops_fractionText (nanos : Nat) : Stops (fractionText nanos ++ ['Z']) := by
  unfold fractionText
  split
  · exact stops_cons (by decide) _
  split
  · exact stops_cons (by decide) _
  split <;> exact stops_cons (by decide) _

theorem fraction?_fractionText {nanos : Nat} (fits : nanos < nanosPerSecond) :
    fraction? (fractionText nanos ++ ['Z']) = some (nanos, ['Z']) := by
  have stops : Stops ['Z'] := stops_cons (by decide) []
  unfold nanosPerSecond at fits
  unfold fractionText
  split
  · rename_i zero
    rw [zero]
    rfl
  split
  · rename_i thousands
    rw [List.cons_append, fraction?_padded (by omega) (by decide) (by decide) stops]
    have value : nanos / 1000000 * 10 ^ (9 - 3) = nanos := by omega
    rw [value]
  split
  · rename_i thousand
    rw [List.cons_append, fraction?_padded (by omega) (by decide) (by decide) stops]
    have value : nanos / 1000 * 10 ^ (9 - 6) = nanos := by omega
    rw [value]
  · rw [List.cons_append, fraction?_padded (by omega) (by decide) (by decide) stops]
    rw [Nat.sub_self, Nat.pow_zero, Nat.mul_one]

/-! ## Points in time -/

variable {time : Timestamp}

/-- The time of day is found from what the clock shows. -/
theorem Valid.clock (valid : time.Valid) : ∃ hour minute second nanos,
    time.clock = (hour, minute, second, nanos) ∧
    hour ≤ 23 ∧ minute ≤ 59 ∧ second ≤ 60 ∧ nanos < nanosPerSecond ∧
    (hour * 3600 + minute * 60 + if second = 60 then 59 else second) = time.second ∧
    (if second = 60 then nanosPerSecond + nanos else nanos) = time.nanos := by
  have second := valid.second
  unfold Timestamp.clock
  simp only
  by_cases leap : nanosPerSecond ≤ time.nanos
  · obtain ⟨last, nanos⟩ := valid.nanos.resolve_left (Nat.not_lt.mpr leap)
    rw [if_pos leap]
    refine ⟨_, _, _, _, rfl, by omega, by omega, by omega, by omega, ?_, ?_⟩
    · rw [if_pos (by omega)]
      omega
    · rw [if_pos (by omega)]
      omega
  · rw [if_neg leap]
    refine ⟨_, _, _, _, rfl, by omega, by omega, by omega, Nat.not_le.mp leap, ?_, ?_⟩
    · rw [if_neg (by omega)]
      omega
    · rw [if_neg (by omega)]

theorem Valid.ofLocal? (valid : time.Valid) :
    ofLocal? (CalendarDay.ofDays time.day) time.second time.nanos 0 = some time := by
  obtain ⟨least, most⟩ := valid.year
  have second := valid.second
  have day : time.day + ((time.second : Int) - 0) / 86400 = time.day := by omega
  have ofDay : (((time.second : Int) - 0) % 86400).toNat = time.second := by omega
  unfold Timestamp.ofLocal?
  simp only [CalendarDay.isReal_ofDays, CalendarDay.toDays_ofDays, day, ofDay,
    decide_eq_false (Int.not_lt.mpr least), decide_eq_false (Int.not_lt.mpr most)]
  rfl

/-- A point in time is read back from its written form. -/
theorem parse?_text (valid : time.Valid) : parse? time.text = some time := by
  have real := CalendarDay.isReal_iff.mp (CalendarDay.isReal_ofDays time.day)
  have local? := valid.ofLocal?
  obtain ⟨hour, minute, second, nanos, shown, hours, minutes, seconds, fits, ofDay, fraction⟩ :=
    valid.clock
  have month : 1 ≤ (CalendarDay.ofDays time.day).month ∧ (CalendarDay.ofDays time.day).month ≤ 12 :=
    real.1
  have day : 1 ≤ (CalendarDay.ofDays time.day).day ∧ (CalendarDay.ofDays time.day).day ≤ 31 :=
    ⟨real.2.1, Nat.le_trans real.2.2 (CalendarDay.monthLength_le _ _)⟩
  have zone : offset? (skipBlank ['Z']) = some (0, []) := by decide
  unfold text parse?
  simp only [shown, String.toList_ofList, Option.bind_eq_bind, List.append_assoc]
  rw [year?_yearText _ (stops_cons (by decide) _), Option.bind_some]
  simp only
  rw [mark?_cons (by decide), Option.bind_some,
    field?_padded month (by decide) (stops_cons (by decide) _), Option.bind_some]
  simp only
  rw [mark?_cons (by decide), Option.bind_some,
    field?_padded day (by decide) (stops_cons (by decide) _), Option.bind_some]
  simp only
  rw [if_neg (by decide), field?_padded ⟨Nat.zero_le _, hours⟩ (by decide)
    (stops_cons (by decide) _), Option.bind_some]
  simp only
  rw [mark?_cons (by decide), Option.bind_some, field?_padded ⟨Nat.zero_le _, minutes⟩ (by decide)
    (stops_cons (by decide) _), Option.bind_some]
  simp only
  rw [mark?_cons (by decide), Option.bind_some, field?_padded ⟨Nat.zero_le _, seconds⟩ (by decide)
    (stops_fractionText nanos), Option.bind_some]
  simp only
  rw [fraction?_fractionText fits, Option.bind_some]
  simp only
  rw [zone, Option.bind_some]
  simp only
  rw [if_neg (by decide), ofDay, fraction]
  exact local?

end Timestamp

end CsvImport
