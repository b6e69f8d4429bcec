/-!
# Command line arguments

Options have a long name, some also a short one.  A value follows as the next
argument or is attached to the option.
-/

namespace CsvImport

/-- What the command line asks a job to be run with. -/
structure Arguments where
  /-- The path of the configuration. -/
  config : String
  /-- The output path that replaces the configured one. -/
  output : Option String := none
  /-- Which notices are shown unless the environment says otherwise. -/
  logLevel : String := "info"
  /-- Whether the sources are only prepared. -/
  dryRun : Bool := false
deriving DecidableEq, Repr, Inhabited

inductive CommandRequest where
  | job (arguments : Arguments)
  | help
  | version
deriving DecidableEq, Repr, Inhabited

inductive CommandOption where
  | config
  | logLevel
  | output
  | dryRun
  | help
  | version
deriving DecidableEq, Repr, Inhabited

inductive UsageError where
  | unexpected (argument : String)
  | noValue (option : CommandOption)
  | emptyValue (option : CommandOption)
  | needlessValue (option : CommandOption)
  | repeated (option : CommandOption)
  | noConfig
deriving DecidableEq, Repr, Inhabited

namespace CommandOption

def name : CommandOption → String
  | config => "config"
  | logLevel => "log-level"
  | output => "output"
  | dryRun => "dry-run"
  | help => "help"
  | version => "version"

def all : List CommandOption :=
  [config, logLevel, output, dryRun, help, version]

def ofName? (text : String) : Option CommandOption :=
  all.find? (·.name == text)

def ofLetter? : Char → Option CommandOption
  | 'c' => some config
  | 'o' => some output
  | 'h' => some help
  | 'V' => some version
  | _ => none

def takesValue : CommandOption → Bool
  | config => true
  | logLevel => true
  | output => true
  | dryRun => false
  | help => false
  | version => false

end CommandOption

namespace UsageError

def message : UsageError → String
  | unexpected argument => "unexpected argument '" ++ argument ++ "' found"
  | noValue option => "a value is required for '--" ++ option.name ++ "' but none was supplied"
  | emptyValue option => "a value is required for '--" ++ option.name ++ "' but none was supplied"
  | needlessValue option => "unexpected value for '--" ++ option.name ++ "' found"
  | repeated option => "the argument '--" ++ option.name ++ "' cannot be used multiple times"
  | noConfig => "the following required arguments were not provided: --config <CONFIG>"

end UsageError

namespace Arguments

structure Given where
  config : Option String := none
  output : Option String := none
  logLevel : Option String := none
  dryRun : Bool := false
deriving DecidableEq, Repr, Inhabited

/-- One meaning of an argument. -/
inductive Word where
  /-- An option, with its value if it has one. -/
  | option (option : CommandOption) (value : String)
  /-- An option whose value is the next argument. -/
  | awaits (option : CommandOption)
  | wrong (error : UsageError)
deriving DecidableEq, Repr, Inhabited

/-- What a long option means, given what stands behind its equals sign if it has one. -/
def longWord (argument : String) (name : List Char) (value : Option (List Char)) : Word :=
  match CommandOption.ofName? (String.ofList name) with
  | none => .wrong (.unexpected argument)
  | some option =>
      match option.takesValue, value with
      | true, some value => .option option (String.ofList value)
      | true, none => .awaits option
      | false, some _ => .wrong (.needlessValue option)
      | false, none => .option option ""

/-- What a run of short options means; the first with a value takes the rest as its value. -/
def shortWords (argument : String) : List Char → List Word
  | [] => []
  | c :: rest =>
      match CommandOption.ofLetter? c with
      | none => [.wrong (.unexpected argument)]
      | some option =>
          if option.takesValue then
            match rest with
            | [] => [.awaits option]
            | '=' :: value => [.option option (String.ofList value)]
            | value => [.option option (String.ofList value)]
          else .option option "" :: shortWords argument rest

/-- What an argument means where no value is awaited. -/
def words (argument : String) : List Word :=
  match argument.toList with
  | '-' :: '-' :: name =>
      let value := (name.dropWhile (· != '=')).tail?
      [longWord argument (name.takeWhile (· != '=')) value]
  | '-' :: c :: rest => shortWords argument (c :: rest)
  | _ => [.wrong (.unexpected argument)]

/-- Whether an argument can be the value of the option before it. -/
def isValue (argument : String) : Bool :=
  argument == "-" || argument.toList.head? != some '-'

/-- Take up an option, unless it was met before. -/
def Given.add (given : Given) (option : CommandOption) (value : String) :
    Except UsageError Given :=
  match option with
  | .config =>
      if given.config.isSome then .error (.repeated option)
      else if value.isEmpty then .error (.emptyValue option)
      else .ok { given with config := some value }
  | .output =>
      if given.output.isSome then .error (.repeated option)
      else .ok { given with output := some value }
  | .logLevel =>
      if given.logLevel.isSome then .error (.repeated option)
      else .ok { given with logLevel := some value }
  | .dryRun =>
      if given.dryRun then .error (.repeated option) else .ok { given with dryRun := true }
  | .help => .ok given
  | .version => .ok given

/-- Where the reading of an argument leads. -/
inductive Reading where
  | more (given : Given)
  /-- The next argument is the value of an option. -/
  | value (given : Given) (option : CommandOption)
  /-- No further argument counts. -/
  | done (request : CommandRequest)
deriving DecidableEq, Repr, Inhabited

def read (given : Given) : List Word → Except UsageError Reading
  | [] => .ok (.more given)
  | .option .help _ :: _ => .ok (.done .help)
  | .option .version _ :: _ => .ok (.done .version)
  | .option option value :: rest => do read (← given.add option value) rest
  | .awaits option :: _ => .ok (.value given option)
  | .wrong error :: _ => .error error

def Given.finish (given : Given) : Except UsageError CommandRequest :=
  match given.config with
  | none => .error .noConfig
  | some config =>
      let dflt : Arguments := { config }
      .ok (.job
        { config
          output := given.output
          logLevel := given.logLevel.getD dflt.logLevel
          dryRun := given.dryRun })

def readAll (given : Given) : List String → Except UsageError CommandRequest
  | [] => given.finish
  | ["--"] => given.finish
  | "--" :: argument :: _ => .error (.unexpected argument)
  | argument :: rest =>
      match read given (words argument) with
      | .error e => .error e
      | .ok (.done request) => .ok request
      | .ok (.more given) => readAll given rest
      | .ok (.value given option) =>
          match rest with
          | [] => .error (.noValue option)
          | value :: rest =>
              if isValue value then
                match given.add option value with
                | .error e => .error e
                | .ok given => readAll given rest
              else .error (.noValue option)

end Arguments

def CommandRequest.ofArguments (arguments : List String) : Except UsageError CommandRequest :=
  Arguments.readAll {} arguments

end CsvImport
