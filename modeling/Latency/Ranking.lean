import Latency.Row
/-!
# Ranking

The rows that answered something, fastest mean first; equal means keep their order.
-/

namespace Latency

variable {τ : Type} [Measure τ]

def Row.isRanked (row : Row τ) : Bool :=
  decide (row.status = .ok) && isMeaningful row.summary

def Row.faster (a b : Row τ) : Bool :=
  Clock.before a.mean b.mean

def rankRows (rows : List (Row τ)) : List (Row τ) :=
  Order.sort Row.faster (rows.filter Row.isRanked)

/-- The rank of each row, counted from one, for the rows that have one; rows count as different by
their place in the list. -/
def ranks (rows : List (Row τ)) : List (Option Nat × Row τ) :=
  let placed := rows.zipIdx
  let ranked := Order.sort (fun a b => a.1.faster b.1) (placed.filter fun r => r.1.isRanked)
  placed.map fun r => ((ranked.findIdx? fun q => q.2 == r.2).map (· + 1), r.1)

def rankBefore : Option Nat → Option Nat → Bool
  | some a, some b => decide (a < b)
  | some _, none => true
  | none, _ => false

/-- All rows with their ranks: first the ranked ones in the order of their ranks, then the others as
they come. -/
def standings (rows : List (Row τ)) : List (Option Nat × Row τ) :=
  Order.sort (fun a b => rankBefore a.1 b.1) (ranks rows)

end Latency
