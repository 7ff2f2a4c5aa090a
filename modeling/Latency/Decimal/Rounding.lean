/-!
# Rounding a quotient

Exact quotients of naturals rounded to the nearest natural, a half going to the even neighbour.
The result is never more than half a unit away, and a tie ends on an even number.
-/

namespace Latency.Decimal

/-- The natural nearest to `num / den`, and of two equally near the even one. -/
def roundQuotient (num den : Nat) : Nat :=
  let q := num / den
  let r := num % den
  if den < 2 * r then q + 1
  else if 2 * r = den ∧ q % 2 = 1 then q + 1
  else q

def digitCount (n : Nat) : Nat :=
  (Nat.toDigits 10 n).length

end Latency.Decimal
