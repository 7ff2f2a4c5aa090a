import Latency.Text.Numeral
/-!
# Probes

What comes of running a small helper program: its exit code and output, or that it could not be run.
A look at a process's memory prints plain digits; what other helpers print need not be text at all.
-/

namespace Latency

inductive Probe where
  | finished (code : Int) (out err : String)
  | notRun
  | timedOut

/-- A run of a helper whose output may be anything. -/
inductive HelperRun where
  | told (p : Probe)
  | undecodable

namespace Probe

def integer? : Probe → Option Int
  | .finished 0 out _ => Text.intOfText? (Text.trim out)
  | _ => none

/-- The first line of a text, of one that is not blank as a whole. -/
def firstTrimmedLine? (text : String) : Option String :=
  (Text.splitLines (Text.trim text)).head?.map Text.trim

def firstLine (text : String) : String :=
  (((Text.splitLines text).map Text.trim).find? (· != "")).getD ""

def shownLine? : Probe → Option String
  | .finished 0 out err =>
    let line := if firstLine out = "" then firstLine err else firstLine out
    if line = "" then none else some line
  | _ => none

def location? : Probe → Option String
  | .finished 0 out _ => firstTrimmedLine? out
  | _ => none

end Probe

end Latency
