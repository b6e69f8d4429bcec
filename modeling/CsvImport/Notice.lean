/-!
# Notices

What a running job tells its operator, line by line.
-/

namespace CsvImport

/-- How important a notice is, most important first. -/
inductive NoticeLevel where
  | error
  | warn
  | info
  | debug
  | trace
deriving DecidableEq, Repr, Inhabited

namespace NoticeLevel

def name : NoticeLevel → String
  | error => "ERROR"
  | warn => "WARN"
  | info => "INFO"
  | debug => "DEBUG"
  | trace => "TRACE"

def rank : NoticeLevel → Nat
  | error => 1
  | warn => 2
  | info => 3
  | debug => 4
  | trace => 5

end NoticeLevel

inductive NoticeTopic where
  | command
  | job
  | source
  | failureLog
  | failures
deriving DecidableEq, Repr, Inhabited

namespace NoticeTopic

def path : NoticeTopic → String
  | command => "sleet"
  | job => "sleet::pipeline"
  | source => "sleet::source"
  | failureLog => "sleet::dlq::queue"
  | failures => "sleet::dlq::tracker"

end NoticeTopic

structure Notice where
  topic : NoticeTopic
  level : NoticeLevel
  text : String
deriving DecidableEq, Repr, Inhabited

end CsvImport
