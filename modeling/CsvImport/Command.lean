import CsvImport.Command.Arguments
import CsvImport.Command.Preview
import CsvImport.Config.Load
import CsvImport.Notice.Filter

/-!
# The command

A command line is answered with an exit status, the bytes for standard output, the
notices to be shown and perhaps a complaint.
-/

namespace CsvImport

inductive ExitStatus where
  | success
  | failure
  /-- The command line was refused. -/
  | usage
deriving DecidableEq, Repr, Inhabited

def ExitStatus.code : ExitStatus → UInt8
  | success => 0
  | failure => 1
  | usage => 2

structure CommandOutcome where
  status : ExitStatus
  standardOutput : Bytes := []
  /-- The notices to be shown, in order. -/
  notices : List Notice := []
  /-- What is said about a command that did not succeed. -/
  complaint : Option String := none
  store : Store
deriving DecidableEq, Repr

namespace Summary

def failureNotice (failure : Failure) : String :=
  "  Failed chunk " ++ failure.chunk.text ++ " at line " ++ toString failure.line ++ ": [" ++
    failure.kind.code ++ "] " ++ failure.message

def lines (summary : Summary) : List String :=
  ["  Sources: " ++ toString summary.sources ++ " (" ++ toString summary.emptySources ++ " empty)",
   "  Documents written: " ++ toString summary.counts.written,
   "  Rows skipped: " ++ toString summary.counts.skipped,
   "  Chunks: " ++ toString summary.chunksSucceeded ++ " succeeded, " ++
     toString summary.chunksFailed ++ " failed, " ++ toString summary.chunksCancelled ++
     " cancelled",
   "  Bytes written: " ++ toString summary.bytesWritten] ++ summary.failures.map failureNotice

def announce (summary : Summary) (session : Session) : Session :=
  summary.lines.foldl (fun session line => session.tell .command .info line) session

end Summary

namespace Arguments

/-- The configuration that the arguments name, with the output path that they give. -/
def configuration (arguments : Arguments) (env : Environment) (store : Store) :
    Except ConfigError Config := do
  let config ← Config.loadFile (some env) (store.fileAt? arguments.config)
  match arguments.output with
  | none => return config
  | some path =>
      let config := { config with output := { config.output with path } }
      config.validate
      return config

/-- The filter of notices: the one of the environment, if it can be read. -/
def filter (arguments : Arguments) (env : Environment) : NoticeFilter :=
  match (env "RUST_LOG").bind NoticeFilter.ofText? with
  | some filter => filter
  | none => NoticeFilter.ofText arguments.logLevel

def sent (config : Config) (run : Run) : Bytes :=
  match run.output with
  | .sink sink => if config.output.isStandard then sink.contents else []
  | .file .. => []

def importAll (config : Config) (schedule : Schedule) (now : Timestamp) (session : Session) :
    Except JobError Unit × Bytes × Session :=
  match Job.ofConfig config with
  | .error e => (.error (.config e), [], session)
  | .ok job =>
      match job.run schedule now session with
      | (.ok summary, run) =>
          let session := run.session.tell .command .info
            ("Import completed" ++ summary.cancelledSuffix)
          (.ok (), sent config run, summary.announce session)
      | (.error (.aborted cause summary), run) =>
          let session := run.session.tell .command .error "Import aborted"
          (.error (.aborted cause summary), sent config run, summary.announce session)
      | (.error e, run) => (.error e, sent config run, run.session)

def perform (arguments : Arguments) (env : Environment) (schedule : Schedule) (now : Timestamp)
    (session : Session) : Except JobError Unit × Bytes × Session :=
  let session := session.tell .command .info "sleet starting"
  match arguments.configuration env session.store with
  | .error e => (.error (.config e), [], session)
  | .ok config =>
      if arguments.dryRun then
        let (result, session) := config.preview session
        (result, [], session)
      else importAll config schedule now session

end Arguments

namespace CommandRequest

def versionText : String := "sleet 0.1.0\n"

def helpText : String :=
  "CSV to NDJSON import tool\n\n" ++
  "Usage: sleet [OPTIONS] --config <CONFIG>\n\n" ++
  "Options:\n" ++
  "  -c, --config <CONFIG>        Path to the configuration file\n" ++
  "      --log-level <LOG_LEVEL>  Log level (trace, debug, info, warn, error) [default: info]\n" ++
  "  -o, --output <OUTPUT>        Override the configured output path (\"-\" for stdout)\n" ++
  "      --dry-run                Dry run - validate configuration and headers and print the " ++
  "chunk plan\n" ++
  "  -h, --help                   Print help\n" ++
  "  -V, --version                Print version\n"

def answer (request : CommandRequest) (env : Environment) (schedule : Schedule) (now : Timestamp)
    (store : Store) : CommandOutcome :=
  match request with
  | help => { status := .success, standardOutput := Utf8.encode helpText, store }
  | version => { status := .success, standardOutput := Utf8.encode versionText, store }
  | job arguments =>
      let (result, standardOutput, session) := arguments.perform env schedule now { store }
      let notices := session.notices.reverse.filter (arguments.filter env).shows
      match result with
      | .ok () => { status := .success, standardOutput, notices, store := session.store }
      | .error e =>
          { status := .failure, standardOutput, notices, complaint := some e.report
            store := session.store }

end CommandRequest

def runCommand (arguments : List String) (env : Environment) (schedule : Schedule)
    (now : Timestamp) (store : Store) : CommandOutcome :=
  match CommandRequest.ofArguments arguments with
  | .ok request => request.answer env schedule now store
  | .error e => { status := .usage, complaint := some e.message, store }

end CsvImport
