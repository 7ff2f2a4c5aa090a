import Latency.Options.Parse
import Latency.Run
import Latency.Settings.Template
/-!
# The command

What the program does with its arguments: it writes a template, or it loads settings, measures and
shows a summary. The status is 1 if settings are refused, if what they name is not there, or if an
answer is not the expected one.
-/

namespace Latency

inductive Ending where
  | declined (why : Exit)
  | status (code : Int)
  | broken (why : Breakdown)

structure Conclusion where
  ending : Ending
  output : List String := []
  errors : List String := []
  host : Host Number

namespace Command

def refuse (host : Host Number) (message : String) : Conclusion :=
  { ending := .status 1, errors := ["Error: " ++ message], host := host }

def breakOff (host : Host Number) (why : Breakdown) : Conclusion :=
  { ending := .broken why, host := host }

def initialise (config : Path) (host : Host Number) : Conclusion :=
  match Settings.writeTemplate config host.files with
  | .error .alreadyExists => refuse host (config.text ++ " already exists")
  | .error why => breakOff host (.file why)
  | .ok files =>
    { ending := .status 0
      output := ["Created " ++ config.text,
        "Edit the file to configure your servers, then run: lsp-bench"]
      host := { host with files := files } }

inductive Refusal where
  | load (why : LoadError)
  | option (why : OptionError)
  | benchmarkUnknown (name : String)

def Refusal.message : Refusal → String
  | .load why => why.message
  | .option why => why.message
  | .benchmarkUnknown name => "unknown benchmark '" ++ name ++ "'"

def prepare (tools : Tools) (o : Options) (config : Path) (files : Files) :
    Except Refusal (Settings × List String) := do
  let loaded ← (Settings.load tools files config).mapError .load
  let s ← (loaded.override o).mapError .option
  let names := if o.benchmarks.isEmpty then s.benchmarks else o.benchmarks
  let selected ← (selectBenchmarks names).mapError .benchmarkUnknown
  return (s, selected)

def conclude (tools : Tools) (done : Run.Finished) (r : Run) : Conclusion :=
  let tallyLines := done.tally.toList.map Tally.summary
  let status := if done.tally.all Tally.ok then 0 else 1
  let finished (lines : List String) : Conclusion :=
    { ending := .status status, output := r.lines ++ lines ++ tallyLines, errors := r.host.trace
      host := r.host }
  match done.path with
  | none => finished []
  | some path =>
    match summaryLines tools done.results with
    | .ok lines => finished (("\n  -> " ++ path.text) :: lines)
    | .error why =>
      { ending := .broken (.fault why), output := r.lines ++ ["\n  -> " ++ path.text]
        errors := r.host.trace, host := r.host }

def measure (tools : Tools) (o : Options) (config : Path) (s : Settings) (names : List String)
    (host : Host Number) : Conclusion :=
  let greeting := [
    "  config " ++ config.text,
    "  file " ++ s.file ++ "  (line " ++ toString s.line ++ ", col " ++ toString s.col ++ ")"]
  let tally : Option Tally := if o.verify then some {} else none
  match Run.all s names o.trace o.verbose tally ⟨host, greeting⟩ with
  | (.error why, r) =>
    { ending := .broken why, output := r.lines, errors := r.host.trace, host := r.host }
  | (.ok done, r) => conclude tools done r

/-- A command whose settings or options are refused, or whose settings cannot be worked out. -/
def turnDown (host : Host Number) : Refusal → Conclusion
  | .load (.refused .outputNotText) => breakOff host .noOutput
  | .load (.refused .unwritable) => breakOff host .unwritable
  | .load (.defect why) => breakOff host (.defect why)
  | .option .noValue => breakOff host .noValue
  | why => refuse host why.message

def start (tools : Tools) (o : Options) (config : Path) (s : Settings) (names : List String)
    (host : Host Number) : Conclusion :=
  match host.files.isDirectory s.project with
  | .error why => breakOff host (.file why)
  | .ok false => refuse host ("project directory not found: " ++ s.project.text)
  | .ok true =>
    match host.files.isFile s.target with
    | .error why => breakOff host (.file why)
    | .ok false => refuse host ("benchmark file not found: " ++ s.target.text)
    | .ok true => measure tools o config s names host

def execute (tools : Tools) (o : Options) (host : Host Number) : Conclusion :=
  match o.config, o.init with
  | none, true => breakOff host .noTemplate
  | none, false => breakOff host .noConfig
  | some config, true => initialise config host
  | some config, false =>
    match prepare tools o config host.files with
    | .error why => turnDown host why
    | .ok (s, names) => start tools o config s names host

def run (tools : Tools) (argv : List String) (host : Host Number) : Conclusion :=
  match Options.parse argv with
  | .error why => { ending := .declined why, host := host }
  | .ok o => execute tools o host

end Command

end Latency
