import CsvImport.FailureKind

/-!
# Failure statistics

How often each kind of failure was recorded.
-/

namespace CsvImport

structure FailureStatistics where
  kinds : List FailureKind := []
deriving DecidableEq, Repr, Inhabited

namespace FailureStatistics

def increment (statistics : FailureStatistics) (kind : FailureKind) : FailureStatistics :=
  ⟨kind :: statistics.kinds⟩

def get (statistics : FailureStatistics) (kind : FailureKind) : Nat :=
  statistics.kinds.count kind

def total (statistics : FailureStatistics) : Nat :=
  statistics.kinds.length

def kindsByCode : List FailureKind :=
  FailureKind.all.mergeSort fun a b => decide (a.code ≤ b.code)

/-- The kinds that were recorded, each with its number. -/
def text (statistics : FailureStatistics) : String :=
  ", ".intercalate ((kindsByCode.filter fun kind => statistics.get kind != 0).map fun kind =>
    kind.code ++ "=" ++ toString (statistics.get kind))

theorem total_increment (statistics : FailureStatistics) (kind : FailureKind) :
    (statistics.increment kind).total = statistics.total + 1 := by
  simp [increment, total]

theorem get_increment (statistics : FailureStatistics) (kind other : FailureKind) :
    (statistics.increment kind).get other =
      statistics.get other + if kind = other then 1 else 0 := by
  simp [increment, get, List.count_cons]

end FailureStatistics

end CsvImport
