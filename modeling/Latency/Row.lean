import Latency.Response
import Latency.Session.Basic
import Latency.Stats
/-!
# Outcomes and rows

A benchmark of one server ends well, with an unusable answer, or not at all. A row reduces the
outcome to what is ranked and reported.
-/

namespace Latency

/-- One measured iteration; the full response is kept to be checked and is not reported. -/
structure Sample (τ : Type) where
  ms : τ
  response : Json
  raw : Option Json := none

inductive Outcome (τ : Type) where
  | ok (samples : List (Sample τ)) (diagnostics : Option (Diagnostics τ)) (memory : Option Int)
  | invalid (response : Json) (diagnostics : Option (Diagnostics τ)) (memory : Option Int)
  | failed (error : String) (logs : List String) (memory : Option Int)

/-- The verdict on a server. A row that was made elsewhere may carry another word. -/
inductive Status where
  | ok
  | invalid
  | fail
  | other (word : String)
deriving Repr, DecidableEq

def Status.text : Status → String
  | .ok => "ok"
  | .invalid => "invalid"
  | .fail => "fail"
  | .other word => word

/-- One server's line in a benchmark; memory is in kilobytes. -/
structure Row (τ : Type) where
  label : String
  status : Status
  p50 : τ
  p95 : τ
  mean : τ
  iterations : List (Sample τ) := []
  summary : Json := .null
  error : String := ""
  logs : List String := []
  memory : Option Int := none

variable {τ : Type} [Measure τ]

def orNoResponse {α : Type} : Option α → Except Fault α
  | some a => .ok a
  | none => .error .noResponse

def Outcome.toRow (label : String) (limit : Nat) : Outcome τ → Except Fault (Row τ)
  | .ok samples _ memory => do
    let stats ← Stats.ofSamples (samples.map (·.ms))
    return {
      label := label, status := .ok, p50 := stats.p50, p95 := stats.p95, mean := stats.mean
      iterations := samples, summary := (samples.head?.map (·.response)).getD .null
      memory := memory }
  | .invalid response _ memory => do
    let summary ← orNoResponse (summary? limit response)
    return {
      label := label, status := .invalid, p50 := Clock.zero, p95 := Clock.zero, mean := Clock.zero
      summary := summary, memory := memory }
  | .failed error logs memory =>
    .ok {
      label := label, status := .fail, p50 := Clock.zero, p95 := Clock.zero, mean := Clock.zero
      error := error, logs := logs, memory := memory }

inductive RowReport (τ : Type) where
  | ok (p50 p95 mean : τ) (iterations : List (τ × Json)) (response : Json)
  | invalid (response : Json)
  | fail (error : String)

def Row.report (row : Row τ) : Except Fault (RowReport τ) :=
  match row.status with
  | .ok => do
    let p50 ← Measure.hundredths row.p50
    let p95 ← Measure.hundredths row.p95
    let mean ← Measure.hundredths row.mean
    let iterations ← row.iterations.mapM fun s => do
      return ((← Measure.hundredths s.ms), s.response)
    return .ok p50 p95 mean iterations row.summary
  | .invalid => .ok (.invalid row.summary)
  | _ => .ok (.fail row.error)

def RowReport.members (number : τ → Json) : RowReport τ → List (String × Json)
  | .ok p50 p95 mean iterations response =>
    [("status", .str "ok"), ("p50_ms", number p50), ("p95_ms", number p95),
     ("mean_ms", number mean),
     ("iterations", .arr (iterations.map fun i =>
        .obj [("ms", number i.1), ("response", i.2)])),
     ("response", response)]
  | .invalid response => [("status", .str "invalid"), ("response", response)]
  | .fail error => [("status", .str "fail"), ("error", .str error)]

def Row.toJson (row : Row Number) : Except Fault Json := do
  let report ← row.report
  let memory := row.memory.toList.map fun kb => ("rss_kb", Json.int kb)
  return .obj (("server", .str row.label) :: report.members .num ++ memory)

end Latency
