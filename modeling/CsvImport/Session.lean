import CsvImport.Metrics
import CsvImport.Notice
import CsvImport.Storage.Store

/-!
# Sessions

A session is everything that a job reads and leaves behind apart from its output:
the stores, the metrics and the notices.
-/

namespace CsvImport

/-- What a job has read from and left behind. -/
structure Session where
  store : Store := {}
  metrics : Metrics := {}
  /-- The notices given, last first. -/
  notices : List Notice := []
deriving DecidableEq, Repr, Inhabited

namespace Session

def tell (session : Session) (topic : NoticeTopic) (level : NoticeLevel)
    (text : String) : Session :=
  { session with notices := ⟨topic, level, text⟩ :: session.notices }

def count (session : Session) (change : Metrics → Metrics) : Session :=
  { session with metrics := change session.metrics }

def touched (session : Session) : List (String × Nat) :=
  session.metrics.touched ++ session.store.requests.touched

end Session

end CsvImport
