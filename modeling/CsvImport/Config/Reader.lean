import CsvImport.Config

/-!
# Reading configurations

A reader says how the values of one notation are taken as texts, numbers, lists
and sections.  `Config.read?` reads a whole configuration with any reader.
-/

namespace CsvImport

structure Reader (α : Type) where
  text? : α → Option String
  /-- An unsigned number of 64 bits. -/
  number? : α → Option Nat
  flag? : α → Option Bool
  /-- A choice, by its written name. -/
  choice? : α → Option String
  /-- A value that may be left out by writing nothing. -/
  optional? : α → Option (Option α)
  list? : α → Option (List α)
  /-- The values of a section under the given names, each if it is there. -/
  entries? : List String → α → Option (List (Option α))

namespace Reader

/-- Read an entry, or take its default if it is not there. -/
def entry {α β : Type} (read : α → Option β) (dflt : β) : Option α → Option β
  | none => some dflt
  | some value => read value

def source? {α : Type} (reader : Reader α) (value : α) : Option SourceConfig := do
  let [paths, size, concurrent] ←
    reader.entries? ["paths", "chunk_size_bytes", "max_concurrent_chunks"] value | none
  let paths ← (← reader.list? (← paths)).mapM reader.text?
  let dflt : SourceConfig := { paths }
  let chunkSize ← entry reader.number? dflt.chunkSize size
  let maxConcurrent ← entry reader.number? dflt.maxConcurrent concurrent
  return { paths, chunkSize, maxConcurrent }

def policy? {α : Type} (reader : Reader α) (value : α) : Option ArityPolicy := do
  ArityPolicy.ofCode? (← reader.choice? value)

def optionalText? {α : Type} (reader : Reader α) (value : α) : Option (Option String) := do
  match ← reader.optional? value with
  | none => return none
  | some value => (reader.text? value).map some

def csv? {α : Type} (reader : Reader α) (value : α) : Option CsvConfig := do
  let [delimiter, quote, trim, policy, header] ←
    reader.entries? ["delimiter", "quote", "trim_header", "arity_policy", "header"] value | none
  let dflt : CsvConfig := {}
  let delimiter ← entry reader.text? dflt.delimiter delimiter
  let quote ← entry reader.text? dflt.quote quote
  let trimHeader ← entry reader.flag? dflt.trimHeader trim
  let policy ← entry reader.policy? dflt.policy policy
  let header ← entry reader.optionalText? dflt.header header
  return { delimiter, quote, trimHeader, policy, header }

def output? {α : Type} (reader : Reader α) (value : α) : Option OutputConfig := do
  let [path] ← reader.entries? ["path"] value | none
  return { path := ← entry reader.text? ({} : OutputConfig).path path }

def errors? {α : Type} (reader : Reader α) (value : α) : Option ErrorConfig := do
  let [limit, log] ← reader.entries? ["max_failures", "dlq_path"] value | none
  let dflt : ErrorConfig := {}
  let maxFailures ← entry reader.number? dflt.maxFailures limit
  let logPath ← entry reader.optionalText? dflt.logPath log
  return { maxFailures, logPath }

end Reader

def Config.read? {α : Type} (reader : Reader α) (value : α) : Option Config := do
  let [source, csv, output, errors] ←
    reader.entries? ["source", "csv", "output", "error_handling"] value | none
  let source ← reader.source? (← source)
  let csv ← Reader.entry reader.csv? {} csv
  let output ← Reader.entry reader.output? {} output
  let errors ← Reader.entry reader.errors? {} errors
  return { source, csv, output, errors }

end CsvImport
