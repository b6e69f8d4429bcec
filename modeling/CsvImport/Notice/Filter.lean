import CsvImport.Notice

/-!
# Filters of notices

A filter is a list of directives.  The directive with the longest path that begins
the path of a notice's topic says how important a shown notice has to be.
-/

namespace CsvImport

/-- What one directive says; a limit is the rank of the least important level shown. -/
inductive NoticeDirective where
  /-- The limit for all notices. -/
  | all (limit : Nat)
  /-- The limit for topics whose path begins with the given one. -/
  | below (path : String) (limit : Nat)
  /-- A limit inside named spans of work, of which there are none. -/
  | span
deriving DecidableEq, Repr, Inhabited

namespace NoticeDirective

def everything : Nat :=
  NoticeLevel.trace.rank

def limitNames : List String :=
  ["off", "error", "warn", "info", "debug", "trace"]

def limit? (text : List Char) : Option Nat :=
  match text with
  | [c] => if '0' ≤ c ∧ c ≤ '5' then some (c.toNat - '0'.toNat) else none
  | _ => limitNames.findIdx? (· == String.ofList (text.map Char.toLower))

/-- Whether a character may stand in a path; all beyond ASCII may. -/
def isPathChar (c : Char) : Bool :=
  c.isAlphanum || c == '_' || c == ':' || c == '-' || 128 ≤ c.toNat

/-- The limit behind a path: everything is shown unless a limit is written. -/
def limitBehind? : List Char → Option Nat
  | [] => some everything
  | ['='] => some everything
  | '=' :: text => limit? text
  | _ => none

def ofChars? (text : List Char) : Option NoticeDirective :=
  match limit? text with
  | some limit => some (all limit)
  | none =>
      let path := text.takeWhile isPathChar
      match text.dropWhile isPathChar with
      | '[' :: rest =>
          match rest.dropWhile (· != ']') with
          | [] => none
          | _ :: behind => (limitBehind? behind).map fun _ => span
      | behind =>
          if path.isEmpty then none
          else (limitBehind? behind).map (below (String.ofList path))

/-- How specific a directive is, if it is about a topic. -/
def weight? (topic : NoticeTopic) : NoticeDirective → Option Nat
  | all _ => some 0
  | below path _ =>
      if path.toList.isPrefixOf topic.path.toList then some path.length else none
  | span => none

def limit : NoticeDirective → Nat
  | all limit => limit
  | below _ limit => limit
  | span => 0

end NoticeDirective

structure NoticeFilter where
  directives : List NoticeDirective
deriving DecidableEq, Repr, Inhabited

namespace NoticeFilter

/-- The filter of directives; without any, errors are shown. -/
def ofDirectives (directives : List NoticeDirective) : NoticeFilter :=
  if directives.isEmpty then ⟨[.all NoticeLevel.error.rank]⟩ else ⟨directives⟩

def pieces (text : String) : List (List Char) :=
  (text.toList.splitOn ',').filter (· ≠ [])

def ofText? (text : String) : Option NoticeFilter :=
  ((pieces text).mapM NoticeDirective.ofChars?).map ofDirectives

/-- Read the directives of a text and pass over the other pieces. -/
def ofText (text : String) : NoticeFilter :=
  ofDirectives ((pieces text).filterMap NoticeDirective.ofChars?)

/-- The more specific of two directives, each with its weight; of equals the later one. -/
def prefer (best : Option (Nat × NoticeDirective)) (topic : NoticeTopic)
    (directive : NoticeDirective) : Option (Nat × NoticeDirective) :=
  match directive.weight? topic, best with
  | none, best => best
  | some weight, none => some (weight, directive)
  | some weight, some (reached, kept) =>
      if reached ≤ weight then some (weight, directive) else some (reached, kept)

/-- The limit for a topic; without a directive about it nothing is shown. -/
def limitFor (filter : NoticeFilter) (topic : NoticeTopic) : Nat :=
  match filter.directives.foldl (fun best directive => prefer best topic directive) none with
  | none => 0
  | some (_, directive) => directive.limit

def shows (filter : NoticeFilter) (notice : Notice) : Bool :=
  notice.level.rank ≤ filter.limitFor notice.topic

end NoticeFilter

end CsvImport
