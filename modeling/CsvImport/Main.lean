import CsvImport.Command
import Std.Time.DateTime.Timestamp

/-!
# The program

The program looks at the files that a command line leads to, answers the command line,
and then writes what the answer has changed.
-/

namespace CsvImport

namespace Program

def pathText (path : DiskPath) : String :=
  "/" ++ "/".intercalate path

/-- What stands at a path; what cannot be read as a file is taken for a directory. -/
def entryAt (path : DiskPath) : IO (Option DiskEntry) := do
  try
    let bytes ← IO.FS.readBinFile (pathText path)
    return some (.file bytes.toList)
  catch
    | .noFileOrDirectory .. => return none
    | _ => return some .directory

def look (disk : Disk) (here : DiskPath) : List String → IO Disk
  | [] => return disk
  | step :: rest => do
      if step = ".." then look disk here.dropLast rest
      else
        let there := here ++ [step]
        match ← entryAt there with
        | none => return disk
        | some .directory => look (disk.set there .directory) there rest
        | some (.file bytes) => return disk.set there (.file bytes)

def lookAt (store : Store) (path : String) : IO Store := do
  return { store with disk := ← look store.disk [] (store.stepsFrom path) }

def lookAtUrl (store : Store) (url : String) (withKey : Bool) : IO Store := do
  match Location.parse store.workingDirectory url withKey with
  | .ok (.disk path key) =>
      let steps := Store.steps path ++ (key.getD {}).parts
      return { store with disk := ← look store.disk [] steps }
  | _ => return store

def valuesOf (names : List String) : IO Environment := do
  let values ← names.mapM fun name => do return (name, ← IO.getEnv name)
  return fun name => (values.lookup name).join

def namesFor (store : Store) (arguments : Arguments) : List String :=
  let text := ((store.fileAt? arguments.config).bind Utf8.decode?).getD ""
  "RUST_LOG" :: referencedNames text

def lookAround (store : Store) (arguments : Arguments) (env : Environment) : IO Store := do
  match arguments.configuration env store with
  | .error _ => return store
  | .ok config =>
      let store ← config.source.paths.foldlM (fun store path => lookAtUrl store path true) store
      let store ← lookAt store config.output.path
      match config.errors.logPath with
      | none => return store
      | some url => lookAtUrl store url false

def now : IO Timestamp := do
  let elapsed := (← Std.Time.Timestamp.now).toNanosecondsSinceUnixEpoch.toInt
  let seconds := elapsed / Timestamp.nanosPerSecond
  return {
    day := seconds / 86400
    second := (seconds % 86400).toNat
    nanos := (elapsed % Timestamp.nanosPerSecond).toNat }

def writeEntry (path : DiskPath) (entry : DiskEntry) : IO Unit := do
  match entry with
  | .directory => IO.FS.createDirAll (pathText path)
  | .file bytes => IO.FS.writeBinFile (pathText path) ⟨bytes.toArray⟩

/-- Write what differs between two disks, directories before what stands in them. -/
def writeChanges (before after : Disk) : IO Unit := do
  let changed := after.entries.filter fun (path, entry) => before.get? path != some entry
  for (path, entry) in changed.mergeSort fun a b => a.1.length ≤ b.1.length do
    writeEntry path entry

def print (time : Timestamp) (notice : Notice) : IO Unit :=
  IO.eprintln (time.text ++ " " ++ notice.level.name ++ " " ++ notice.text)

/-- Answer a command line and leave behind what the answer says. -/
def run (arguments : List String) : IO ExitStatus := do
  let store : Store := { workingDirectory := (← IO.currentDir).toString }
  let (store, env) ← match CommandRequest.ofArguments arguments with
    | .ok (.job asked) => do
        let store ← lookAt store asked.config
        let env ← valuesOf (namesFor store asked)
        pure (← lookAround store asked env, env)
    | _ => pure (store, fun _ => none)
  let time ← now
  let outcome := runCommand arguments env (.steady time) time store
  writeChanges store.disk outcome.store.disk
  outcome.notices.forM (print time)
  let out ← IO.getStdout
  out.write ⟨outcome.standardOutput.toArray⟩
  out.flush
  match outcome.complaint with
  | some text => IO.eprintln ("Error: " ++ text)
  | none => pure ()
  return outcome.status

end Program

end CsvImport

def main (arguments : List String) : IO UInt32 := do
  return (← CsvImport.Program.run arguments).code.toUInt32
