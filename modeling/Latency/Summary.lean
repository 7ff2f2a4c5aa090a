import Latency.Ranking
import Latency.Tools
/-!
# Summaries

The rows of a benchmark as the cells of a table, fastest first.
-/

namespace Latency

variable {τ : Type} [Measure τ]

/-- What the status column says; an ok row without a rank said nothing. -/
def statusCell (rank : Option Nat) (row : Row τ) : String :=
  if row.status = .ok ∧ rank = none then "ok (empty)" else row.status.text

def timeCell (row : Row τ) (time : τ) : Except Fault String :=
  if row.status = .ok then Measure.tenths? time else .ok "-"

def rowCells (rank : Option Nat) (row : Row τ) : Except Fault (List String) := do
  let mean ← timeCell row row.mean
  let p50 ← timeCell row row.p50
  let p95 ← timeCell row row.p95
  return [(rank.map toString).getD "", row.label, statusCell rank row, mean, p50, p95]

def formatSummary (tools : Tools) (name : String) (rows : List (Row τ)) : Except Fault String := do
  let cells ← (standings rows).mapM fun s => rowCells s.1 s.2
  let headers := ["Rank", "Server", "Status", "Mean (ms)", "p50 (ms)", "p95 (ms)"]
  return name ++ "\n" ++ tools.drawTable headers cells

end Latency
