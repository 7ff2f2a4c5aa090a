import Latency.Decimal.Binary64
/-!
# Shortest decimals

The shortest decimal that reads back as a given double, and of several such the nearest. For one,
two, ... digits the two neighbours of the exact value on that decimal grid are tried; the first
grid with a hit wins.
-/

namespace Latency.Decimal

/-- The decimal `0.d₁d₂… * 10 ^ point`. -/
structure Digits where
  digits : List Nat
  point : Int
deriving Repr, DecidableEq

/-- The least `p` with `num / den < 10 ^ p`, for a positive quotient. -/
def decimalPoint (num den : Nat) : Int :=
  if den ≤ num then digitCount (num / den)
  else
    let k := digitCount (den / num)
    if num * Nat.pow 10 (k - 1) = den then 2 - (k : Int) else 1 - (k : Int)

def scale (num den : Nat) (power : Int) : Nat × Nat :=
  match power with
  | .ofNat p => (num * Nat.pow 10 p, den)
  | .negSucc p => (num, den * Nat.pow 10 (p + 1))

/-- The decimals of `count` digits that lie within the interval `low .. high` (in units of a
quarter of `den`) around `4 * num / (4 * den)`, the nearer first. -/
def gridHit? (num den low high : Nat) (ends : Bool) (point : Int) (count : Nat) : Option Nat :=
  let power := (count : Int) - point
  let (n, d) := scale (4 * num) (4 * den) power
  let (l, _) := scale low (4 * den) power
  let (h, _) := scale high (4 * den) power
  let below := n / d
  let within (k : Nat) : Bool :=
    if ends then decide (l ≤ k * d) && decide (k * d ≤ h)
    else decide (l < k * d) && decide (k * d < h)
  match within below, within (below + 1) with
  | true, true => some (roundQuotient n d)
  | true, false => some below
  | false, true => some (below + 1)
  | false, false => none

/-- The digits of the shortest decimal that reads back as `mantissa * 2 ^ exponent`. -/
def shortest (mantissa : Nat) (exponent : Int) : Digits :=
  if mantissa = 0 then ⟨[0], 1⟩
  else
    let (num, den) := ratio mantissa exponent
    let unit := (ratio 1 exponent).1
    -- the gap below a power of two is half as wide
    let narrow := decide (mantissa = Nat.pow 2 52) && decide (-1074 < exponent)
    let low := 4 * num - (if narrow then unit else 2 * unit)
    let high := 4 * num + 2 * unit
    let point := decimalPoint num den
    let hit := (List.range 17).findSome? fun k =>
      (gridHit? num den low high (mantissa % 2 == 0) point (k + 1)).map (k + 1, ·)
    match hit with
    | none => ⟨[0], 1⟩
    | some (count, value) =>
      let ds := Nat.toDigits 10 value
      let shown := (ds.reverse.dropWhile (· == '0')).reverse
      ⟨shown.map fun c => c.toNat - 48, point + ((ds.length : Int) - count)⟩

end Latency.Decimal
