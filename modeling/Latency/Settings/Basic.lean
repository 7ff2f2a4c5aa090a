import Latency.Host
import Latency.Params
import Latency.Value.Text
/-!
# Settings

What a run is asked to do: the project and its file, the servers, how often and how long to measure,
where to put the reports, and what is set for single methods.
-/

namespace Latency

/-- The settings of a run. Times are in seconds; a response limit of zero means none. -/
structure Settings where
  project : Path
  file : String
  servers : List Server
  line : Int := 102
  col : Int := 15
  iterations : Int := 10
  warmup : Int := 2
  timeout : Number := .int 10
  indexTimeout : Number := .int 15
  /-- Where records are put; `none` if the command line leaves no directory. -/
  output : Option Path := some (Path.ofString "benchmarks")
  benchmarks : List String := []
  responseLimit : Int := 80
  languageId : String := "solidity"
  methods : MethodTable := []

def Settings.target (s : Settings) : Path :=
  s.project.child s.file

/-- Why settings are refused. A place says which part of the settings is meant. -/
inductive SettingsError where
  | notMapping
  | required (key : String)
  | notList (key : String)
  | serverNotObject (index : Nat)
  | serverWithoutLabel (index : Nat)
  | serverWithoutCommand (label : String)
  | serverArguments (label : String)
  | methodsNotObject
  | methodUnknown (name : String)
  | methodNotObject (place : String)
  | notCount (place key : String)
  | expectNotObject (place : String)
  | expectFileNotText (place : String)
  | editsNotList (place : String)
  | editNotObject (place : String)
  | editIncomplete (place : String)
  | notNumber (key : String) (got : Value)
  | notInteger (key : String) (got : Number)
  | tooSmall (key : String) (strict : Bool) (least : Int) (got : Number)
  | responseLimit
  /-- A value that is to be shown has an integer in it with too many digits. This one and the next
  are not reported as refusals but break the run off. -/
  | unwritable
  /-- The output directory is no text. -/
  | outputNotText

def SettingsError.message : SettingsError → String
  | .notMapping => "config must be a mapping"
  | .required key => "'" ++ key ++ "' is required"
  | .notList key => "'" ++ key ++ "' must be a list"
  | .serverNotObject i => "servers[" ++ toString i ++ "] must be an object"
  | .serverWithoutLabel i => "servers[" ++ toString i ++ "] needs a 'label'"
  | .serverWithoutCommand label => "server '" ++ label ++ "' needs a 'cmd'"
  | .serverArguments label => "server '" ++ label ++ "': 'args' must be a list of strings"
  | .methodsNotObject => "'methods' must be an object keyed by method name"
  | .methodUnknown name => "methods: unknown method '" ++ name ++ "'"
  | .methodNotObject place => place ++ " must be an object"
  | .notCount place key => place ++ ": '" ++ key ++ "' must be a non-negative integer"
  | .expectNotObject place => place ++ ": 'expect' must be an object"
  | .expectFileNotText place => place ++ ": expect 'file' must be a string"
  | .editsNotList place => place ++ ": 'didChange' must be a list"
  | .editNotObject place => place ++ " must be an object"
  | .editIncomplete place => place ++ " needs 'file', 'line' and 'col'"
  | .notNumber key got => "'" ++ key ++ "' must be a number, got " ++ got.inspect
  | .notInteger key got => "'" ++ key ++ "' must be an integer, got " ++ got.text
  | .tooSmall key strict least got =>
    let bound := (if strict then "> " else ">= ") ++ toString least
    "'" ++ key ++ "' must be " ++ bound ++ ", got " ++ got.text
  | .responseLimit => "response must be \"full\" or a non-negative number"
  | .unwritable => "an integer has too many digits"
  | .outputNotText => "the output directory must be a text"

end Latency
