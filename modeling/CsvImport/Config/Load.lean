import CsvImport.Interpolation
import CsvImport.Yaml.Reader

/-!
# Loading configurations

A configuration is loaded from YAML text: references are put in if asked for,
the text is read, and the result is validated.
-/

namespace CsvImport

namespace Config

/-- Put in the references of a text, or report all problems, one on a line. -/
def resolveReferences (env : Environment) (text : String) : Except ConfigError String :=
  (interpolate env text).mapError fun problems =>
    .references ("\n".intercalate (problems.map ReferenceProblem.message))

/-- The configuration that a YAML text writes, not validated. -/
def ofYaml? (text : String) : Option Config := do
  let doc ← Yaml.Document.ofText? text
  Config.read? doc.reader doc.root

/-- Load a configuration from a text; without an environment references stay as they are. -/
def load (env : Option Environment) (text : String) : Except ConfigError Config := do
  let text ← match env with
    | none => pure text
    | some env => resolveReferences env text
  match ofYaml? text with
  | none => .error .malformed
  | some config =>
      config.validate
      return config

def loadFile (env : Option Environment) (bytes : Option Bytes) : Except ConfigError Config :=
  match bytes.bind Utf8.decode? with
  | none => .error .unreadable
  | some text => load env text

end Config

end CsvImport
