import CsvImport.Text.Blank

/-!
# Points in time

A point in time is a day, counted from 1970-01-01, and the time of day in UTC.
A leap second is the last second of its minute with more than a thousand
million nanoseconds.
-/

namespace CsvImport

/-- A point in time, in UTC. -/
structure Timestamp where
  /-- Days since 1970-01-01. -/
  day : Int := 0
  /-- Seconds since midnight. -/
  second : Nat := 0
  /-- Nanoseconds since the second began. -/
  nanos : Nat := 0
deriving DecidableEq, Repr, Inhabited

structure CalendarDay where
  year : Int
  month : Nat
  day : Nat
deriving DecidableEq, Repr, Inhabited

namespace CalendarDay

def isLeap (year : Int) : Bool :=
  year % 4 == 0 && (year % 100 != 0 || year % 400 == 0)

def monthLength (year : Int) (month : Nat) : Nat :=
  if month = 2 then if isLeap year then 29 else 28
  else if [4, 6, 9, 11].contains month then 30
  else 31

def isReal (date : CalendarDay) : Bool :=
  1 ≤ date.month && date.month ≤ 12 && 1 ≤ date.day &&
    date.day ≤ monthLength date.year date.month

/--
Days since 1970-01-01.  Years are taken to begin in March, so that a leap day is the
last of its year, and are counted in cycles of 400.
-/
def toDays (date : CalendarDay) : Int :=
  let year := if date.month ≤ 2 then date.year - 1 else date.year
  let cycle := year / 400
  let yearOfCycle := year % 400
  let month : Int := if date.month ≤ 2 then date.month + 9 else date.month - 3
  let dayOfYear := (153 * month + 2) / 5 + date.day - 1
  let dayOfCycle := yearOfCycle * 365 + yearOfCycle / 4 - yearOfCycle / 100 + dayOfYear
  cycle * 146097 + dayOfCycle - 719468

/-- The day that lies a number of days behind 1970-01-01. -/
def ofDays (days : Int) : CalendarDay :=
  let shifted := days + 719468
  let cycle := shifted / 146097
  let dayOfCycle := shifted % 146097
  let yearOfCycle :=
    (dayOfCycle - dayOfCycle / 1460 + dayOfCycle / 36524 - dayOfCycle / 146096) / 365
  let dayOfYear := dayOfCycle - (365 * yearOfCycle + yearOfCycle / 4 - yearOfCycle / 100)
  let month := (5 * dayOfYear + 2) / 153
  let day := dayOfYear - (153 * month + 2) / 5 + 1
  let calendarMonth := if month < 10 then month + 3 else month - 9
  let year := yearOfCycle + cycle * 400
  { year := if calendarMonth ≤ 2 then year + 1 else year
    month := calendarMonth.toNat
    day := day.toNat }

end CalendarDay

namespace Timestamp

def yearRange : Int × Int := (-262143, 262142)

def nanosPerSecond : Nat := 1000000000

/-! ## Writing -/

def padded (width n : Nat) : List Char :=
  let digits := (toString n).toList
  List.replicate (width - digits.length) '0' ++ digits

/-- A year: four digits, or more with a sign. -/
def yearText (year : Int) : List Char :=
  if 0 ≤ year ∧ year ≤ 9999 then padded 4 year.toNat
  else if year < 0 then '-' :: padded 4 year.natAbs
  else '+' :: padded 4 year.natAbs

/-- A fraction of a second: nothing, or three, six or nine digits. -/
def fractionText (nanos : Nat) : List Char :=
  if nanos = 0 then []
  else if nanos % 1000000 = 0 then '.' :: padded 3 (nanos / 1000000)
  else if nanos % 1000 = 0 then '.' :: padded 6 (nanos / 1000)
  else '.' :: padded 9 nanos

/-- The hour, minute, second and fraction to be shown; a leap second is second 60. -/
def clock (time : Timestamp) : Nat × Nat × Nat × Nat :=
  let hour := time.second / 3600
  let minute := time.second / 60 % 60
  let second := time.second % 60
  if nanosPerSecond ≤ time.nanos then (hour, minute, second + 1, time.nanos - nanosPerSecond)
  else (hour, minute, second, time.nanos)

def text (time : Timestamp) : String :=
  let date := CalendarDay.ofDays time.day
  let (hour, minute, second, nanos) := time.clock
  String.ofList (yearText date.year ++ '-' :: (padded 2 date.month ++ '-' :: (padded 2 date.day ++
    'T' :: (padded 2 hour ++ ':' :: (padded 2 minute ++ ':' :: (padded 2 second ++
    fractionText nanos ++ ['Z']))))))

/-- The written form to the second, without punctuation between fields. -/
def compactText (time : Timestamp) : String :=
  let date := CalendarDay.ofDays time.day
  let (hour, minute, second, _) := time.clock
  String.ofList (yearText date.year ++ padded 2 date.month ++ padded 2 date.day ++
    '-' :: (padded 2 hour ++ padded 2 minute ++ padded 2 second))

/-! ## Reading -/

def skipBlank (chars : List Char) : List Char :=
  chars.dropWhile Text.isBlank

def numberOf (digits : List Char) : Nat :=
  digits.foldl (fun n c => 10 * n + (c.toNat - '0'.toNat)) 0

def number? (width : Nat) (chars : List Char) : Option (Nat × List Char) :=
  let digits := (chars.take width).takeWhile Char.isDigit
  if digits.isEmpty then none else some (numberOf digits, chars.drop digits.length)

/-- A number in a range, behind optional white space. -/
def field? (low high : Nat) (chars : List Char) : Option (Nat × List Char) := do
  let (n, rest) ← number? 2 (skipBlank chars)
  if low ≤ n ∧ n ≤ high then return (n, rest) else none

/-- What stands behind a mark and optional white space before it. -/
def mark? (mark : Char) (chars : List Char) : Option (List Char) :=
  match skipBlank chars with
  | c :: rest => if c = mark then some rest else none
  | [] => none

/-- A year: up to four digits, or any number of them behind a sign. -/
def year? (chars : List Char) : Option (Int × List Char) :=
  match skipBlank chars with
  | '-' :: rest => (number? rest.length rest).map fun (n, behind) => (-(n : Int), behind)
  | '+' :: rest => (number? rest.length rest).map fun (n, behind) => ((n : Int), behind)
  | other => (number? 4 other).map fun (n, behind) => ((n : Int), behind)

def fraction? : List Char → Option (Nat × List Char)
  | '.' :: rest =>
      let digits := rest.takeWhile Char.isDigit
      if digits.isEmpty then none
      else
        let kept := digits.take 9
        some (numberOf kept * Nat.pow 10 (9 - kept.length), rest.dropWhile Char.isDigit)
  | chars => some (0, chars)

def twoDigits? (tens : Nat) : List Char → Option (Nat × List Char)
  | a :: b :: rest =>
      if a.isDigit && b.isDigit && a.toNat ≤ '0'.toNat + tens then
        some (numberOf [a, b], rest)
      else none
  | _ => none

def minusSign : Char := '\u2212'

/-- Hours and minutes of an offset in seconds; colons and white space may part them. -/
def offsetSize? (chars : List Char) : Option (Nat × List Char) := do
  let (hours, rest) ← twoDigits? 9 chars
  let (minutes, rest) ← twoDigits? 5 (rest.dropWhile fun c => c == ':' || Text.isBlank c)
  return (hours * 3600 + minutes * 60, rest)

/-- The offset from UTC in seconds: `Z`, `UTC` in any case, or a sign with hours and minutes. -/
def offset? (chars : List Char) : Option (Int × List Char) :=
  if (chars.take 3).map Char.toUpper = ['U', 'T', 'C'] then some (0, chars.drop 3)
  else
    match chars with
    | [] => none
    | c :: rest =>
        if c = 'Z' ∨ c = 'z' then some (0, rest)
        else if c = '+' then (offsetSize? rest).map fun (n, behind) => ((n : Int), behind)
        else if c = '-' ∨ c = minusSign then
          (offsetSize? rest).map fun (n, behind) => (-(n : Int), behind)
        else none

/-- A point in time given by a day and a time of day that are `offset` seconds ahead of UTC. -/
def ofLocal? (date : CalendarDay) (second nanos : Nat) (offset : Int) : Option Timestamp :=
  if !date.isReal || date.year < yearRange.1 || yearRange.2 < date.year then none
  else if 86400 ≤ offset.natAbs then none
  else
    let utc := (second : Int) - offset
    let day := date.toDays + utc / 86400
    let shown := CalendarDay.ofDays day
    if shown.year < yearRange.1 || yearRange.2 < shown.year then none
    else some { day, second := (utc % 86400).toNat, nanos }

/-- The point in time that a text writes as a date, a time of day and an offset. -/
def parse? (text : String) : Option Timestamp := do
  let (year, rest) ← year? text.toList
  let (month, rest) ← field? 1 12 (← mark? '-' rest)
  let (day, rest) ← field? 1 31 (← mark? '-' rest)
  let separator :: rest := rest | none
  if separator ∉ ['t', 'T', ' '] then none
  let (hour, rest) ← field? 0 23 rest
  let (minute, rest) ← field? 0 59 (← mark? ':' rest)
  let (second, rest) ← field? 0 60 (← mark? ':' rest)
  let (nanos, rest) ← fraction? rest
  let (offset, rest) ← offset? (skipBlank rest)
  if !(skipBlank rest).isEmpty then none
  let leap := second = 60
  ofLocal? ⟨year, month, day⟩ (hour * 3600 + minute * 60 + if leap then 59 else second)
    (if leap then nanosPerSecond + nanos else nanos) offset

end Timestamp

end CsvImport
