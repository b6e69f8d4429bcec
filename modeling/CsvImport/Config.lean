import CsvImport.Document
import CsvImport.Text.Quoted

/-!
# Configurations

A configuration names the sources of a job and how they are split, the dialect
of the sources, where documents go and what becomes of failures.
-/

namespace CsvImport

/-- Which sources are imported, and how they are split. -/
structure SourceConfig where
  /-- The paths of the sources, in order. -/
  paths : List String
  /-- The size that every chunk but the last of a source reaches. -/
  chunkSize : Nat := 8388608
  /-- How many chunks may be in flight at a time. -/
  maxConcurrent : Nat := 4
deriving DecidableEq, Repr, Inhabited

/-- The dialect of the sources and the treatment of their rows, as written. -/
structure CsvConfig where
  delimiter : String := ","
  quote : String := "\""
  trimHeader : Bool := false
  policy : ArityPolicy := .lenient
  /-- The header of sources that hold none themselves. -/
  header : Option String := none
deriving DecidableEq, Repr, Inhabited

structure OutputConfig where
  path : String := "-"
deriving DecidableEq, Repr, Inhabited

structure ErrorConfig where
  /-- How many failures a job outlives; zero for any number. -/
  maxFailures : Nat := 0
  /-- The directory of the failure log. -/
  logPath : Option String := none
deriving DecidableEq, Repr, Inhabited

structure Config where
  source : SourceConfig
  csv : CsvConfig := {}
  output : OutputConfig := {}
  errors : ErrorConfig := {}
deriving DecidableEq, Repr, Inhabited

inductive ConfigError where
  | noSources
  | blankSource (index : Nat)
  | blankOutput
  | zeroChunkSize
  | zeroConcurrency
  /-- A dialect entry is not one ASCII character. -/
  | notOneByte (entry value : String)
  | delimiterIsQuote (byte : UInt8)
  /-- A dialect entry ends lines. -/
  | endsLines (entry : String)
  | header (source : HeaderError)
  /-- The configured header is not one record. -/
  | headerRecords (count : Nat)
  /-- References have no text; one line for each. -/
  | references (details : String)
  /-- The text is no configuration. -/
  | malformed
  /-- There is no text to be read. -/
  | unreadable
deriving DecidableEq, Repr, Inhabited

namespace ConfigError

def message? : ConfigError → Option String
  | noSources => some "At least one source path is required"
  | blankSource index => some ("Source path " ++ toString index ++ " cannot be empty")
  | blankOutput => some "Output path cannot be empty"
  | zeroChunkSize => some "chunk_size_bytes must be greater than zero"
  | zeroConcurrency => some "max_concurrent_chunks must be greater than zero"
  | notOneByte entry value =>
      some (entry ++ " must be a single ASCII character, got " ++ Text.quoted value)
  | delimiterIsQuote byte =>
      some ("delimiter and quote must differ (both are " ++
        Text.quotedChar (Char.ofNat byte.toNat) ++ ")")
  | endsLines entry => some (entry ++ " cannot be a line terminator")
  | header source => some ("Configured header is invalid: " ++ source.message)
  | headerRecords count =>
      some ("Configured header must be a single record, found " ++ toString count)
  | references details => some ("Environment variable interpolation failed:\n" ++ details)
  | malformed => none
  | unreadable => none

end ConfigError

namespace CsvConfig

/-- The byte of a dialect entry: one ASCII character that ends no line. -/
def dialectByte (entry value : String) : Except ConfigError UInt8 :=
  match Utf8.encode value with
  | [byte] =>
      if byte < 128 then
        if byte = Bytes.lf ∨ byte = Bytes.cr then .error (.endsLines entry) else .ok byte
      else .error (.notOneByte entry value)
  | _ => .error (.notOneByte entry value)

def dialect (config : CsvConfig) : Except ConfigError Dialect := do
  let delimiter ← dialectByte "delimiter" config.delimiter
  let quote ← dialectByte "quote" config.quote
  if delimiter = quote then .error (.delimiterIsQuote delimiter)
  else return { delimiter, quote, trimHeader := config.trimHeader }

theorem dialectByte_ok {entry value : String} {byte : UInt8}
    (found : dialectByte entry value = .ok byte) :
    byte < 128 ∧ byte ≠ Bytes.lf ∧ byte ≠ Bytes.cr := by
  unfold dialectByte at found
  split at found
  · split at found
    · split at found
      · cases found
      · cases found
        simp_all
    · cases found
  · cases found

/-- The dialect of a configuration can be used by a job. -/
theorem accepted_of_dialect {config : CsvConfig} {d : Dialect} (found : config.dialect = .ok d) :
    d.Accepted := by
  unfold dialect at found
  cases delimiter : dialectByte "delimiter" config.delimiter with
  | error => simp [delimiter, bind, Except.bind] at found
  | ok first =>
      cases quote : dialectByte "quote" config.quote with
      | error => simp [delimiter, quote, bind, Except.bind] at found
      | ok second =>
          simp only [delimiter, quote, bind, Except.bind] at found
          split at found
          · cases found
          · rename_i differ
            cases found
            obtain ⟨ascii, notLf, notCr⟩ := dialectByte_ok delimiter
            obtain ⟨quoteAscii, quoteNotLf, quoteNotCr⟩ := dialectByte_ok quote
            exact ⟨ascii, quoteAscii, differ, notLf, notCr, quoteNotLf, quoteNotCr⟩

/-- How many records a text holds, one that cannot be decoded included. -/
def countRecords (d : Dialect) (text : Bytes) : Nat :=
  ((Decoder.ofBytes text).records d).1.countP fun
    | .ok item => !item.isBlank
    | .error _ => true

/-- The configured header, if there is one: the only record of its text. -/
def configuredHeader (config : CsvConfig) : Except ConfigError (Option Header) :=
  match config.header with
  | none => .ok none
  | some text => do
      let d ← config.dialect
      let header ← (Header.parse d (Utf8.encode text)).mapError .header
      let count := countRecords d (Utf8.encode text)
      if count = 1 then return some header else .error (.headerRecords count)

end CsvConfig

namespace OutputConfig

def isStandard (config : OutputConfig) : Bool :=
  config.path == "-"

end OutputConfig

namespace Config

def validate (config : Config) : Except ConfigError Unit := do
  if config.source.paths.isEmpty then .error .noSources
  match config.source.paths.findIdx? fun path => Text.isBlankText path with
  | some index => .error (.blankSource index)
  | none => pure ()
  if config.source.chunkSize = 0 then .error .zeroChunkSize
  if config.source.maxConcurrent = 0 then .error .zeroConcurrency
  if Text.isBlankText config.output.path then .error .blankOutput
  let _ ← config.csv.dialect
  let _ ← config.csv.configuredHeader
  return ()

end Config

end CsvImport
