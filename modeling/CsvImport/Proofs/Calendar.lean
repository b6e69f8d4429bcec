import CsvImport.Timestamp

/-!
# The calendar

Days are counted in cycles of 400 years that begin in March.  The calendar has every day that is
counted, and counting it gives the day back.
-/

namespace CsvImport

namespace CalendarDay

/-- The days of a cycle that lie before one of its years. -/
def daysBefore (year : Int) : Int :=
  365 * year + year / 4 - year / 100

/-- The days of a cycle up to a day, leap days left out, so that 365 of them make a year. -/
def commonDays (day : Int) : Int :=
  day - day / 1460 + day / 36524 - day / 146096

theorem commonDays_mono {day later : Int} (before : day ≤ later) :
    commonDays day ≤ commonDays later := by
  unfold commonDays
  omega

/-- A year of a cycle by its century, its group of four years and its place there. -/
theorem year_split {year : Int} (first : 0 ≤ year) (last : year < 400) :
    ∃ century group place : Int, year = 100 * century + 4 * group + place ∧
      (0 ≤ century ∧ century < 4) ∧ (0 ≤ group ∧ group < 25) ∧ (0 ≤ place ∧ place < 4) ∧
      daysBefore year = 36524 * century + 1461 * group + 365 * place := by
  refine ⟨year / 100, year % 100 / 4, year % 4, ?_, ?_, ?_, ?_, ?_⟩
  · omega
  · omega
  · omega
  · omega
  · unfold daysBefore
    omega

theorem commonDays_daysBefore {year : Int} (first : 0 ≤ year) (last : year < 400) :
    commonDays (daysBefore year) = 365 * year := by
  obtain ⟨century, group, place, rfl, _, _, _, before⟩ := year_split first last
  have groups : daysBefore (100 * century + 4 * group + place) / 1460 = 25 * century + group := by
    omega
  have centuries : daysBefore (100 * century + 4 * group + place) / 36524 = century := by omega
  have cycles : daysBefore (100 * century + 4 * group + place) / 146096 = 0 := by omega
  unfold commonDays
  rw [groups, centuries, cycles, before]
  omega

theorem commonDays_dayBefore {year : Int} (first : 0 < year) (last : year < 400) :
    commonDays (daysBefore year - 1) < 365 * year := by
  obtain ⟨century, group, place, rfl, _, _, _, before⟩ := year_split (Int.le_of_lt first) last
  have groups : (daysBefore (100 * century + 4 * group + place) - 1) / 1460 =
      25 * century + group := by omega
  have centuries : (daysBefore (100 * century + 4 * group + place) - 1) / 36524 ≤ century := by
    omega
  have cycles : (daysBefore (100 * century + 4 * group + place) - 1) / 146096 = 0 := by omega
  unfold commonDays
  rw [groups, cycles]
  omega

theorem year_of_commonDays {day : Int} (first : 0 ≤ day) (last : day < 146097) :
    let year := commonDays day / 365
    (0 ≤ year ∧ year < 400) ∧ daysBefore year ≤ day ∧
      (year < 399 → day < daysBefore (year + 1)) := by
  intro year
  have value : year = commonDays day / 365 := rfl
  have range : 0 ≤ year ∧ year < 400 := by
    unfold commonDays at value
    omega
  refine ⟨range, ?_, fun earlier => ?_⟩
  -- Leaving leap days out keeps days in order, so that the days where years begin decide.
  · rcases Int.lt_or_le day (daysBefore year) with before | within
    · have positive : 0 < year := by
        rcases Int.lt_or_eq_of_le range.1 with positive | zero
        · exact positive
        · rw [← zero] at before
          exact absurd first (Int.not_le.mpr before)
      have most := commonDays_mono (Int.le_sub_one_of_lt before)
      have less := commonDays_dayBefore positive range.2
      omega
    · exact within
  · rcases Int.lt_or_le day (daysBefore (year + 1)) with before | behind
    · exact before
    · have least := commonDays_mono behind
      have there : commonDays (daysBefore (year + 1)) = 365 * (year + 1) :=
        commonDays_daysBefore (by omega) (by omega)
      omega

theorem isLeap_iff {year : Int} :
    isLeap year = true ↔ year % 4 = 0 ∧ (year % 100 ≠ 0 ∨ year % 400 = 0) := by
  simp [isLeap]

/-- The day of its year that a day of a cycle is.  A year is a day longer where the next February
is. -/
theorem dayOfYear_bounds {day : Int} (first : 0 ≤ day) (last : day < 146097) :
    let year := commonDays day / 365
    let dayOfYear := day - daysBefore year
    0 ≤ dayOfYear ∧ dayOfYear ≤ 365 ∧
      (dayOfYear = 365 → ∀ cycle, isLeap (cycle * 400 + year + 1) = true) := by
  obtain ⟨range, within, before⟩ := year_of_commonDays first last
  intro year dayOfYear
  have own : dayOfYear = day - (365 * year + year / 4 - year / 100) := rfl
  change 0 ≤ year ∧ year < 400 at range
  change 365 * year + year / 4 - year / 100 ≤ day at within
  change year < 399 → day < 365 * (year + 1) + (year + 1) / 4 - (year + 1) / 100 at before
  refine ⟨by omega, by omega, fun long cycle => isLeap_iff.mpr ?_⟩
  -- The year has 366 days only if the quotient by 4 grows and the one by 100 does not.
  have quarter : (year + 1) / 4 = year / 4 ∨
      (year + 1) % 4 = 0 ∧ (year + 1) / 4 = year / 4 + 1 := by omega
  have century : (year + 1) % 100 ≠ 0 ∧ (year + 1) / 100 = year / 100 ∨
      (year + 1) / 100 = year / 100 + 1 := by omega
  have four : (year + 1) % 4 = 0 := by omega
  have hundred : (year + 1) % 100 ≠ 0 ∨ year + 1 = 400 := by omega
  omega

/-- The day of the calendar that is a day of a year that begins in March. -/
def ofYear (year dayOfYear : Int) : CalendarDay :=
  let month := (5 * dayOfYear + 2) / 153
  { year := if month < 10 then year else year + 1
    month := (if month < 10 then month + 3 else month - 9).toNat
    day := (dayOfYear - (153 * month + 2) / 5 + 1).toNat }

theorem ofDays_eq_ofYear (days : Int) :
    let day := (days + 719468) % 146097
    let year := commonDays day / 365
    0 ≤ day - daysBefore year → day - daysBefore year ≤ 365 →
      ofDays days = ofYear ((days + 719468) / 146097 * 400 + year) (day - daysBefore year) := by
  intro day year least most
  change (let month := (5 * (day - daysBefore year) + 2) / 153
    let shown := if month < 10 then month + 3 else month - 9
    let here := year + (days + 719468) / 146097 * 400
    (⟨if shown ≤ 2 then here + 1 else here, shown.toNat, _⟩ : CalendarDay)) = _
  unfold ofYear
  have month : (5 * (day - daysBefore year) + 2) / 153 ≤ 11 := by omega
  refine congrArg (CalendarDay.mk · _ _) ?_
  rw [Int.add_comm year]
  by_cases early : (5 * (day - daysBefore year) + 2) / 153 < 10
  · rw [if_pos early, if_pos early, if_neg (by omega)]
  · rw [if_neg early, if_neg early, if_pos (by omega)]

/-- Every day is a day of a year of a cycle. -/
theorem ofDays_cases (days : Int) : ∃ cycle year dayOfYear : Int,
    (0 ≤ year ∧ year < 400) ∧ (0 ≤ dayOfYear ∧ dayOfYear ≤ 365) ∧
    (dayOfYear = 365 → isLeap (cycle * 400 + year + 1) = true) ∧
    days + 719468 = 146097 * cycle + daysBefore year + dayOfYear ∧
    ofDays days = ofYear (cycle * 400 + year) dayOfYear := by
  have first : 0 ≤ (days + 719468) % 146097 := by omega
  have last : (days + 719468) % 146097 < 146097 := by omega
  obtain ⟨range, -, -⟩ := year_of_commonDays first last
  obtain ⟨least, most, leap⟩ := dayOfYear_bounds first last
  refine ⟨(days + 719468) / 146097, _, _, range, ⟨least, most⟩, fun long => leap long _, ?_,
    ofDays_eq_ofYear days least most⟩
  omega

theorem isReal_iff {date : CalendarDay} : date.isReal = true ↔
    (1 ≤ date.month ∧ date.month ≤ 12) ∧ 1 ≤ date.day ∧
      date.day ≤ monthLength date.year date.month := by
  simp only [isReal, Bool.and_eq_true, decide_eq_true_eq, and_assoc]

theorem monthLength_le (year : Int) (month : Nat) : monthLength year month ≤ 31 := by
  unfold monthLength
  split
  · split <;> decide
  · split <;> decide

theorem isReal_ofYear {year dayOfYear : Int} (first : 0 ≤ dayOfYear) (last : dayOfYear ≤ 365)
    (leap : dayOfYear = 365 → isLeap (year + 1) = true) :
    (ofYear year dayOfYear).isReal = true := by
  refine isReal_iff.mpr ?_
  unfold ofYear
  generalize inMonth : (5 * dayOfYear + 2) / 153 = month
  -- February, the last month of such a year, is the only one whose length is not fixed.
  by_cases february : month = 11
  · subst february
    have length : (dayOfYear - (153 * 11 + 2) / 5 + 1).toNat ≤ monthLength (year + 1) 2 := by
      unfold monthLength
      simp only [↓reduceIte]
      split
      · omega
      · rename_i common
        have short : dayOfYear ≠ 365 := fun long => common (leap long)
        omega
    have named : (1 ≤ 2 ∧ 2 ≤ 12) := by decide
    exact ⟨named, Int.lt_toNat.mpr (by omega), length⟩
  · have known : month = 0 ∨ month = 1 ∨ month = 2 ∨ month = 3 ∨ month = 4 ∨ month = 5 ∨
        month = 6 ∨ month = 7 ∨ month = 8 ∨ month = 9 ∨ month = 10 := by omega
    rcases known with rfl | rfl | rfl | rfl | rfl | rfl | rfl | rfl | rfl | rfl | rfl <;>
      simp [monthLength] <;> omega

/-- Days of the calendar are counted by cycle, year and day of the year. -/
theorem toDays_ofYear {cycle year dayOfYear : Int} (range : 0 ≤ year ∧ year < 400)
    (first : 0 ≤ dayOfYear) (last : dayOfYear ≤ 365) :
    (ofYear (cycle * 400 + year) dayOfYear).toDays =
      146097 * cycle + daysBefore year + dayOfYear - 719468 := by
  have cycles : (cycle * 400 + year) / 400 = cycle := by omega
  have years : (cycle * 400 + year) % 400 = year := by omega
  unfold ofYear toDays
  by_cases early : (5 * dayOfYear + 2) / 153 < 10
  · have month : ¬((5 * dayOfYear + 2) / 153 + 3).toNat ≤ 2 := by omega
    simp only [if_pos early, if_neg month, cycles, years]
    unfold daysBefore
    omega
  · have month : ((5 * dayOfYear + 2) / 153 - 9).toNat ≤ 2 := by omega
    have same : cycle * 400 + year + 1 - 1 = cycle * 400 + year := Int.add_sub_cancel _ _
    simp only [if_neg early, if_pos month, same, cycles, years]
    unfold daysBefore
    omega

theorem isReal_ofDays (days : Int) : (ofDays days).isReal = true := by
  obtain ⟨cycle, year, dayOfYear, range, bounds, leap, -, date⟩ := ofDays_cases days
  rw [date]
  exact isReal_ofYear bounds.1 bounds.2 leap

theorem toDays_ofDays (days : Int) : (ofDays days).toDays = days := by
  obtain ⟨cycle, year, dayOfYear, range, bounds, -, counted, date⟩ := ofDays_cases days
  rw [date, toDays_ofYear range bounds.1 bounds.2, ← counted]
  omega

end CalendarDay

end CsvImport
