import Latency.Json.Parser
import Latency.Settings.Read
import Latency.Tools
/-!
# Settings in files

A settings file is UTF-8 text. Its name decides the format: JSON for the ending `.json`, else YAML.
-/

namespace Latency

inductive LoadError where
  | unreadable (path : Path) (why : FileError)
  | malformed (path : Path)
  | refused (why : SettingsError)
  /-- A value of the document cannot be worked out. This one is not reported but breaks the
  run off. -/
  | defect (why : Yaml.Defect)

def LoadError.message : LoadError → String
  | .unreadable path why => "Error reading config " ++ path.text ++ ": " ++ why.reason
  | .malformed path => "Error parsing config " ++ path.text ++ ":"
  | .refused why => why.message
  | .defect _ => "the document has no value"

namespace Settings

def usualPath : Path := Path.ofString "benchmark.yaml"

def document (tools : Tools) (json : Bool) (text : List Char) : Except Yaml.Defect Value :=
  if json then
    match Json.parse? text with
    | some j => .ok (Value.ofJson j)
    | none => .error .malformed
  else tools.readYaml text

def ofOctets (tools : Tools) (path : Path) (octets : List UInt8) : Except LoadError Settings :=
  match Text.decodeUtf8? octets with
  | none => .error (.malformed path)
  | some text =>
    match document tools (path.hasSuffix ".json") (Text.unifyNewlines text) with
    | .error .malformed => .error (.malformed path)
    | .error defect => .error (.defect defect)
    | .ok v =>
      match ofValue v with
      | .error why => .error (.refused why)
      | .ok s => .ok s

def load (tools : Tools) (files : Files) (path : Path) : Except LoadError Settings :=
  match files.read path with
  | .error .badPath => .error (.malformed path)
  | .error why => .error (.unreadable path why)
  | .ok octets => ofOctets tools path octets

end Settings

end Latency
