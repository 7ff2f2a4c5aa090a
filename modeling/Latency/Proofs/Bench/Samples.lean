import Latency.Proofs.Bench.Rows
/-!
# How many samples a row has

A benchmark that ends well has gone through all its iterations or edits, so the row has a sample of
each measured one: the number is known before the benchmark starts.
-/

namespace Latency

variable {τ : Type}

section Rounds

variable [Clock τ] {server : Server} {b : BenchSettings τ} {h : Host τ}
  {samples out : List (Sample τ)} {diagnostics : Option (Diagnostics τ)} {memory : Option Int}

/-! ## What breaks an iteration off is no success -/

end Rounds

/-! ## Benchmarks -/

section Benchmarks

variable {b : BenchSettings τ} {task : Task} {params : String → String → Json} {server : Server}
  {h : Host τ}

def Task.measured (b : BenchSettings τ) : Task → Nat
  | .edits _ list => list.length
  | _ => b.iterations.toNat

variable [Measure τ] {row : Row τ}

end Benchmarks

end Latency
