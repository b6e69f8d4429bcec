import CsvImport.Job

/-!
# Previews

A preview prepares the sources of a job and tells their chunks, but decodes none.
-/

namespace CsvImport

namespace Config

def announce (config : Config) (session : Session) : Session :=
  ((session.tell .command .info "Dry run mode - validating configuration and headers").tell
    .command .info ("Output: " ++ config.output.path)).tell
    .command .info ("Arity policy: " ++ config.csv.policy.code)

end Config

namespace Source

def overview (source : Source) : String :=
  source.path ++ ": " ++ toString source.size ++ " bytes, " ++ toString source.chunks.length ++
    " chunks, header: " ++ source.header.display

def announce (source : Source) (session : Session) : Session :=
  source.chunks.foldl
    (fun session chunk => session.tell .command .info
      ("  - " ++ chunk.id.text ++ " (first line " ++ toString chunk.firstLine ++ ")"))
    (session.tell .command .info source.overview)

end Source

namespace Job

/-- Prepare the sources at the paths one after the other and tell what they hold. -/
def previewSources (job : Job) (session : Session) :
    List String → Except FatalError Unit × Session
  | [] => (.ok (), session)
  | path :: more =>
      match job.prepare path session with
      | (.error e, session) => (.error e, session)
      | (.ok none, session) =>
          job.previewSources (session.tell .command .info (path ++ ": empty source")) more
      | (.ok (some source), session) => job.previewSources (source.announce session) more

end Job

def Config.preview (config : Config) (session : Session) : Except JobError Unit × Session :=
  let session := config.announce session
  match Job.ofConfig config with
  | .error e => (.error (.config e), session)
  | .ok job =>
      match job.previewSources session config.source.paths with
      | (.error e, session) => (.error (.fatal e), session)
      | (.ok (), session) =>
          (.ok (), session.tell .command .info "Configuration is valid")

end CsvImport
