import Latency.Command
import Latency.Scenario
/-!
# The program

Carries out a command line in a scenario that is read from standard input: a JSON object with the
files there are (`files`) and how servers and helper programs behave (`world`).
-/

namespace Latency

/-- All lines of a stream. -/
partial def readAll (stream : IO.FS.Stream) (text : String) : IO String := do
  let line ← stream.getLine
  if line.isEmpty then return text else readAll stream (text ++ line)

def scene : Path := Path.ofString "/scene"

/-- What is shown when the arguments are not carried out. -/
def usage : String :=
  "arguments: [benchmarks ...] [-c FILE] [-n COUNT] [-w COUNT] [-t SECONDS]\n" ++
  "           [--index-timeout SECONDS] [-o DIRECTORY] [--trace] [-v] [--init] [--verify]"

def Breakdown.text : Breakdown → String
  | .fault .noSamples => "there are no samples"
  | .fault .overflow => "a number is out of range"
  | .fault .notANumber => "a number is not a number"
  | .fault .noResponse => "an answer is no response"
  | .file why => why.reason
  | .version (.file why) => why.reason
  | .version .undecodable => "the output of a helper program is no text"
  | .version .packageNotObject => "a package.json does not hold an object"
  | .unwritable => SettingsError.unwritable.message
  | .noOutput => "there is no output directory"
  | .noConfig => "there is no settings file"
  | .noTemplate => "there is no place for the template"
  | .noValue => OptionError.noValue.message
  | .defect _ => "a value of the settings cannot be worked out"

def present (done : Conclusion) : IO UInt32 := do
  for line in done.output do IO.println line
  for line in done.errors do IO.eprintln line
  match done.ending with
  | .status code => return UInt32.ofNat code.toNat
  | .declined why =>
    if why = .help then IO.println usage else IO.eprintln usage
    return UInt32.ofNat why.code.toNat
  | .broken why =>
    IO.eprintln ("broken off: " ++ why.text)
    return 1

end Latency

open Latency in
def main (argv : List String) : IO UInt32 := do
  let text ← readAll (← IO.getStdin) ""
  match Json.parse? text.toList with
  | none =>
    IO.eprintln "the scenario is not JSON"
    return 2
  | some scenario =>
    let files := Scenario.member scenario "files"
    let world := Scenario.member scenario "world"
    present (Command.run .usual argv (Scenario.host scene files world))
