import Latency.Record
import Latency.Settings.Load
import Latency.Sweep
import Latency.Version
/-!
# Runs

A run measures all servers that can be started on one benchmark after the other. After each
benchmark the record so far is saved aside; at the end the whole record is saved and what was saved
aside is removed.
-/

namespace Latency

inductive Breakdown where
  | fault (why : Fault)
  | file (why : FileError)
  | version (why : VersionError)
  /-- The directory for records is no text, or there is none. -/
  | noOutput
  /-- An integer of the settings has too many digits to be shown. -/
  | unwritable
  /-- The option for the settings file has no value. -/
  | noConfig
  /-- The option for the template's place has no value. -/
  | noTemplate
  | noValue
  | defect (why : Yaml.Defect)

structure Run where
  host : Host Number
  lines : List String := []

abbrev Step (α : Type) := Except Breakdown α × Run

namespace Run

def say (lines : List String) (r : Run) : Run :=
  { r with lines := r.lines ++ lines }

def selectServers : List Server → Run → Step (List Server)
  | [], r => (.ok [], r)
  | server :: rest, r =>
    match r.host.isAvailable server.cmd with
    | .error why => (.error (.version why), r)
    | .ok true =>
      let (others, last) := selectServers rest r
      (others.map (server :: ·), last)
    | .ok false => selectServers rest (r.say ["  skip " ++ server.label ++ " -- not found"])

def detectVersions : List Server → Run → Step Versions
  | [], r => (.ok [], r)
  | server :: rest, r =>
    match r.host.versionOf server.cmd with
    | .error why => (.error (.version why), r)
    | .ok version =>
      let (others, last) :=
        detectVersions rest (r.say ["  " ++ server.label ++ " = " ++ version])
      (others.map ((server.label, version) :: ·), last)

def benchSettings (files : Files) (directory : Path) (s : Settings) (tracing : Bool) :
    Except Breakdown (BenchSettings Number) := do
  let target ← (files.resolve (directory.child s.file)).mapError .file
  let timeout ← s.timeout.toFloat.mapError .fault
  let indexTimeout ← s.indexTimeout.toFloat.mapError .fault
  return {
    directory := directory, rootUri := directory.uri, target := target
    warmup := s.warmup, iterations := s.iterations
    timeout := .float timeout, indexTimeout := .float indexTimeout
    responseLimit := s.responseLimit.toNat, languageId := s.languageId, tracing := tracing }

def resolveEdits (directory : Path) (own : Option MethodSettings) : List ResolvedEdit :=
  ((own.map (·.edits)).getD []).map fun e => ⟨directory.child e.file, e.line, e.col, e.expect⟩

structure Plan where
  settings : Settings
  output : Path
  bench : BenchSettings Number
  servers : List Server
  versions : Versions
  verbose : Bool
  total : Nat

def saveRecord (p : Plan) (results : Results) (directory : Path) (r : Run) : Step Path :=
  match Record.build r.host.now results p.versions p.servers p.settings with
  | .error why => (.error (.fault why), r)
  | .ok record =>
    match Record.save r.host.now record directory r.host.files with
    | .error why => (.error (.file why), r)
    | .ok (path, files) => (.ok path, { r with host := { r.host with files := files } })

def Plan.aside (p : Plan) : Path := p.output.child "partial"

def opening (p : Plan) (number : Nat) (name : String) (edits : List ResolvedEdit) : List String :=
  ("\n[" ++ toString number ++ "/" ++ toString p.total ++ "] " ++ name) ::
    (if edits.isEmpty then []
     else ["  edit " ++ toString edits.length ++ " snapshot(s) via didChange"])

/-- The checks of a benchmark's rows, which are made for requests only. -/
def checks (name : String) (own : Option MethodSettings) (edits : List ResolvedEdit)
    (rows : List (Row Number)) : Tally × List String :=
  if name = handshakeName ∨ name = diagnosticName then ({}, [])
  else verifyRows (own.bind (·.expect)) edits rows

def benchmark (p : Plan) (tally : Option Tally) (number : Nat) (name : String) (r : Run) :
    Step (List (Row Number) × Option Tally) :=
  let own := p.settings.methods.lookup name
  let edits := resolveEdits p.bench.directory own
  let params := Params.forMethod p.settings.methods p.settings.line p.settings.col
  let r := r.say (opening p number name edits)
  let (swept, host) :=
    sweepTask (Task.ofName name edits) p.bench params p.verbose p.servers r.host
  let r := { r with host := host }.say swept.lines
  match swept.rows with
  | .error why => (.error (.fault why), r)
  | .ok rows =>
    match tally with
    | none => (.ok (rows, none), r)
    | some t =>
      let (counted, lines) := checks name own edits rows
      (.ok (rows, some (t.add counted)), r.say lines)

/-- Benchmarks one after the other, numbered from `number` on, behind those with results. -/
def benchmarks (p : Plan) : Nat → List String → Results → Option Tally → Run →
    Step (Results × Option Tally)
  | _, [], results, tally, r => (.ok (results, tally), r)
  | number, name :: rest, results, tally, r =>
    match benchmark p tally number name r with
    | (.error why, r) => (.error why, r)
    | (.ok (rows, tally), r) =>
      let results := results ++ [(name, rows)]
      match saveRecord p results p.aside r with
      | (.error why, r) => (.error why, r)
      | (.ok path, r) =>
        benchmarks p (number + 1) rest results tally (r.say ["  saved " ++ path.text])

structure Finished where
  results : Results
  path : Option Path
  tally : Option Tally

/-- The end of a run: the whole record is saved, unless nothing was measured. -/
def finish (p : Plan) (results : Results) (tally : Option Tally) (r : Run) : Step Finished :=
  if results.isEmpty then (.ok ⟨results, none, tally⟩, r)
  else
    match saveRecord p results p.output r with
    | (.error why, r) => (.error why, r)
    | (.ok path, r) =>
      let files := r.host.files.removeTree p.aside
      (.ok ⟨results, some path, tally⟩, { r with host := { r.host with files := files } })

/-- What a run needs to know before its first benchmark: which servers there are, their versions,
and where everything is. -/
def plan (s : Settings) (total : Nat) (tracing verbose : Bool) (r : Run) : Step Plan :=
  match r.host.files.resolve s.project with
  | .error why => (.error (.file why), r)
  | .ok directory =>
    match selectServers s.servers r with
    | (.error why, r) => (.error why, r)
    | (.ok servers, r) =>
      match detectVersions servers (r.say ["\nDetecting versions..."]) with
      | (.error why, r) => (.error why, r)
      | (.ok versions, r) =>
        match benchSettings r.host.files directory s tracing, s.output with
        | .error why, _ => (.error why, r)
        | .ok _, none => (.error .noOutput, r)
        | .ok bench, some output => (.ok ⟨s, output, bench, servers, versions, verbose, total⟩, r)

def all (s : Settings) (names : List String) (tracing verbose : Bool) (tally : Option Tally)
    (r : Run) : Step Finished :=
  match plan s names.length tracing verbose r with
  | (.error why, r) => (.error why, r)
  | (.ok p, r) =>
    match benchmarks p 1 names [] tally r with
    | (.error why, r) => (.error why, r)
    | (.ok (results, tally), r) => finish p results tally r

end Run

end Latency
