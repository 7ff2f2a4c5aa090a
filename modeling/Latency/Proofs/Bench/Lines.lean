import Latency.Proofs.Bench.Samples
import Latency.Proofs.Number.Range
/-!
# What a sweep shows

A sweep goes through all its servers whatever measuring one of them comes to, be it an outcome or a
crash: as long as the outcomes are such that a row can be made of them (`Outcome.Admissible`), each
server has its row and its lines, and both are a matter of what was measured of it alone.
-/

namespace Latency

/-! ## Outcomes that give rows -/

/-- What a row says of what measuring a server came to. -/
inductive Row.Tells (limit : Nat) (row : Row Number) : Except Crash (Outcome Number) → Prop where
  | ok {samples : List (Sample Number)} {diagnostics : Option (Diagnostics Number)}
      {memory : Option Int} : row.status = .ok → row.iterations = samples →
        row.memory = memory → row.logs = [] → Tells limit row (.ok (.ok samples diagnostics memory))
  | invalid {response : Json} {diagnostics : Option (Diagnostics Number)} {memory : Option Int} :
      row.status = .invalid → row.summary = responseSummary limit response →
        row.memory = memory → row.logs = [] →
          Tells limit row (.ok (.invalid response diagnostics memory))
  | failed {error : String} {logs : List String} {memory : Option Int} :
      row.status = .fail → row.error = error → row.memory = memory → row.logs = logs →
        Tells limit row (.ok (.failed error logs memory))
  | crashed {crash : Crash} :
      row.status = .fail → row.error = crash.kind ++ ": " ++ crash.text → row.memory = none →
        row.logs = [] → Tells limit row (.error crash)

/-- The lines that show a row: one with the verdict, and the last ten of its log. -/
def Row.ShownAs (row : Row Number) (lines : List String) : Prop :=
  ∃ more tail, lines = ("  " ++ Text.padRight 20 row.label ++
      (if row.status = .ok then " pass  " else " fail  ") ++ more) :: tail.map ("      | " ++ ·) ∧
    tail <:+ row.logs ∧ tail.length = min 10 row.logs.length

section Sweeps

variable {σ : Type}

/-- The row and the lines of a server, which are a matter of its own label and attempt. -/
structure Shows (limit : Nat) (verbose : Bool) (server : Server) (attempt : Attempt Number)
    (row : Row Number) (lines : List String) : Prop where
  row_eq : (settleOutcome attempt.2).toRow server.label limit = .ok row
  label : row.label = server.label
  tells : row.Tells limit attempt.2
  lines : ∃ shown, verdictLines row = .ok shown ∧ row.ShownAs shown ∧
    lines = (if verbose then attempt.1.map (progressLine server.label) else []) ++ shown

end Sweeps

section Mixed

end Mixed

end Latency
