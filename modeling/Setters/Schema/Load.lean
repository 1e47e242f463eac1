import Setters.FileTree
import Setters.Schema.JsonReader
import Setters.Toml.Report

/-!
# Loading schemas

A schema is loaded from a text in one of two formats, or from a file whose extension tells the
format (section 10.3 of the specification). The format is settled first: a file of another kind
is refused whether it exists or not.
-/

namespace Setters

inductive SchemaFormat where
  | json
  | toml
deriving DecidableEq

/-- The format that the extension of a path tells. -/
def SchemaFormat.ofPath? (path : FilePath) : Option SchemaFormat :=
  match path.extension? with
  | some "json" => some .json
  | some "toml" => some .toml
  | _ => none

inductive LoadFault where
  /-- The file cannot be read. -/
  | unreadable (path : FilePath) (fault : FileFault)
  /-- What is read without a path is no text. -/
  | notText
  | json (fault : Json.Fault)
  | toml (source : String) (fault : Toml.Fault)
  /-- The extension tells no format. -/
  | unsupportedFormat (path : FilePath)
deriving DecidableEq

def LoadFault.message : LoadFault → String
  | .unreadable path fault => "failed to read " ++ path.text ++ ": " ++ fault.message
  | .notText => FileFault.notText.message
  | .json fault => "invalid JSON schema: " ++ fault.message
  | .toml _ fault => "invalid TOML schema: " ++ fault.message
  | .unsupportedFormat path =>
    "unsupported schema format: " ++ path.text ++ " (expected .json or .toml)"

def LoadFault.report : LoadFault → String
  | .json fault => "invalid JSON schema: " ++ fault.report
  | .toml source fault => "invalid TOML schema: " ++ fault.report source
  | fault => fault.message

namespace Schema

/-- The schema of a text (`from_json_str`, `from_toml_str`). -/
def ofText (format : SchemaFormat) (text : String) : Except LoadFault Schema :=
  match format with
  | .json => (ofJsonText text).mapError .json
  | .toml => (ofTomlText text).mapError (.toml text)

/-- The schema of a file (`from_file`); `read` gives the text of the file at a path. -/
def load (read : FilePath → Except FileFault String) (path : FilePath) :
    Except LoadFault Schema :=
  match SchemaFormat.ofPath? path with
  | none => .error (.unsupportedFormat path)
  | some format =>
    match read path with
    | .error fault => .error (.unreadable path fault)
    | .ok text => ofText format text

end Schema

end Setters
