import Latency.Clock
import Latency.Order
/-!
# Statistics of samples

Median, 95th percentile and mean of measured times. Percentiles are elements of the sorted samples,
at the index that is rounded down, without interpolation.
-/

namespace Latency

structure Stats (τ : Type) where
  p50 : τ
  p95 : τ
  mean : τ

def medianIndex (count : Nat) : Nat := count / 2

def percentileIndex (count : Nat) : Nat := 19 * count / 20

theorem medianIndex_lt {count : Nat} (h : 0 < count) : medianIndex count < count := by
  unfold medianIndex; omega

theorem percentileIndex_lt {count : Nat} (h : 0 < count) : percentileIndex count < count := by
  unfold percentileIndex; omega

/-- The statistics of samples, of which there has to be one. -/
def Stats.ofSamples {τ : Type} [Measure τ] (samples : List τ) : Except Fault (Stats τ) :=
  let sorted := Order.sort Clock.before samples
  if h : 0 < sorted.length then do
    let p50 := sorted.get ⟨medianIndex sorted.length, medianIndex_lt h⟩
    let p95 := sorted.get ⟨percentileIndex sorted.length, percentileIndex_lt h⟩
    return { p50 := p50, p95 := p95, mean := ← Measure.mean sorted }
  else .error .noSamples

end Latency
