import CsvImport.Timestamp

/-!
# Schedules

A schedule settles everything about a job that is not settled by its input: which
chunk in flight ends next, when a shutdown is asked for, and what time it is.  A job
asks the schedule again and again, and the questions are numbered.
-/

namespace CsvImport

/-- The answer of a schedule to one question. -/
structure Turn where
  /-- Which of the chunks in flight ends next, counted modulo their number. -/
  pick : Nat := 0
  /-- Whether that chunk had not begun when a shutdown was asked for. -/
  unstarted : Bool := false
  /-- What time it is. -/
  now : Timestamp := {}
deriving DecidableEq, Repr, Inhabited

/-- What happens around a job. -/
structure Schedule where
  /-- The answers by the number of the question. -/
  turn : Nat → Turn := fun _ => {}
  /--
  Whether a shutdown has been asked for, by the number of the question and the number
  of writes that the output has taken.
  -/
  stops : Nat → Nat → Bool := fun _ _ => false

namespace Schedule

/-- No shutdown, and chunks end in the order in which they were started. -/
def steady (now : Timestamp) : Schedule where
  turn _ := { now }

end Schedule

end CsvImport
