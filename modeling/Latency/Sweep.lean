import Latency.Bench.Diagnostics
import Latency.Bench.Edits
import Latency.Bench.Requests
import Latency.Bench.Startup
/-!
# A benchmark across servers

Servers are measured one after another, and a failure of one never stops the others. Each gives a
row and a line with the verdict, with its progress before it on request and its last log lines
behind a failure.
-/

namespace Latency

inductive Task where
  | startup
  | diagnostics
  | requests (method : String)
  | edits (method : String) (edits : List ResolvedEdit)

/-- The benchmark of a name; edits are for requests only. -/
def Task.ofName (name : String) (edits : List ResolvedEdit) : Task :=
  if name = handshakeName then .startup
  else if name = diagnosticName then .diagnostics
  else if edits.isEmpty then .requests name
  else .edits name edits

variable {τ : Type}

/-- Runs a benchmark on a server; `params` gives the parameters of a method for a URI. -/
def Task.run [Clock τ] (task : Task) (b : BenchSettings τ) (params : String → String → Json)
    (server : Server) (h : Host τ) : Report τ × Host τ :=
  match task with
  | .startup => benchStartup server b h
  | .diagnostics => benchDiagnostics server b h
  | .requests method => benchRequests server b method (params method) h
  | .edits method list => benchEdits server b method list h

/-- The outcome of a benchmark that may have broken off. -/
def settleOutcome : Except Crash (Outcome τ) → Outcome τ
  | .ok outcome => outcome
  | .error crash => .failed (crash.kind ++ ": " ++ crash.text) [] none

def memoryNote : Option Int → Except Fault String
  | none => .ok ""
  | some kb => do
    let megabytes ← (Number.int kb).divCount 1024
    return "  [" ++ (← megabytes.tenths) ++ " MB]"

def progressLine (label line : String) : String :=
  "    " ++ Text.padRight 20 label ++ " " ++ line

def verdictLines [Measure τ] (row : Row τ) : Except Fault (List String) := do
  let head := "  " ++ Text.padRight 20 row.label
  match row.status with
  | .ok =>
    let mean ← Measure.tenths? row.mean
    let p50 ← Measure.tenths? row.p50
    let p95 ← Measure.tenths? row.p95
    let memory ← memoryNote row.memory
    let times := mean ++ "ms mean  (" ++ p50 ++ "ms p50, " ++ p95 ++ "ms p95)"
    return [head ++ " pass  " ++ times ++ memory]
  | .invalid => return [head ++ " fail  invalid response" ++ (← memoryNote row.memory)]
  | _ =>
    let memory ← memoryNote row.memory
    let tail := row.logs.drop (row.logs.length - 10)
    return (head ++ " fail  " ++ row.error ++ memory) :: tail.map ("      | " ++ ·)

/-- What measuring a server gives: its progress lines, and its outcome unless it broke off. -/
abbrev Attempt (τ : Type) := List String × Except Crash (Outcome τ)

structure Swept (τ : Type) where
  lines : List String
  rows : Except Fault (List (Row τ))

/-- Measures servers one after another; `measure` takes a server in a state of the world. -/
def sweep {σ : Type} [Measure τ] (limit : Nat) (verbose : Bool)
    (measure : Server → σ → Attempt τ × σ) : List Server → σ → Swept τ × σ
  | [], state => (⟨[], .ok []⟩, state)
  | server :: rest, state =>
    let ((progress, result), next) := measure server state
    let shown := if verbose then progress.map (progressLine server.label) else []
    match (settleOutcome result).toRow server.label limit with
    | .error fault => (⟨shown, .error fault⟩, next)
    | .ok row =>
      match verdictLines row with
      | .error fault => (⟨shown, .error fault⟩, next)
      | .ok lines =>
        let (others, last) := sweep limit verbose measure rest next
        (⟨shown ++ lines ++ others.lines, others.rows.map (row :: ·)⟩, last)

def sweepTask [Measure τ] (task : Task) (b : BenchSettings τ) (params : String → String → Json)
    (verbose : Bool) (servers : List Server) (h : Host τ) : Swept τ × Host τ :=
  sweep b.responseLimit verbose (fun server state =>
    let (report, next) := task.run b params server state
    ((report.progress, report.outcome), next)) servers h

end Latency
