import Latency.Stats
import Latency.Proofs.Number.Integers
/-!
# The index of a percentile

The index of a percentile is a product of doubles that is rounded down.  The double that stands for
19/20 is a little below it, but too little to be seen in a count of samples
(`floor_mul_eq_percentileIndex`).
-/

namespace Latency

namespace Decimal

theorem Rounds.exists_roundsAt {q v : ℚ} (h : Rounds q v) (hq : 0 ≤ q) :
    ∃ t n, RoundsAt q t n ∧ v = n * 2 ^ t := by
  obtain ⟨negative, p, t, n, hp, hat, rfl, rfl⟩ := h
  cases negative
  · exact ⟨t, n, hat, rfl⟩
  · have hzero : p = 0 := le_antisymm (neg_nonneg.1 hq) hp
    subst hzero
    refine ⟨t, n, ?_, ?_⟩
    · simpa using hat
    · simp [signed, hat.eq_zero]

/-- What is less than half a unit below a natural is not rounded below it. -/
theorem Rounds.natCast_le {q v : ℚ} {k : ℕ} (h : Rounds q v) (hq : 0 ≤ q) (hless : q < 2 ^ 52)
    (hnear : 2 * (k - q) * 2 ^ 53 ≤ q) : k ≤ v := by
  obtain ⟨t, n, hat, rfl⟩ := h.exists_roundsAt hq
  have hpos := two_zpow_pos t
  have ht : t ≤ 0 := by
    by_contra hlarge
    have hfull : (2 : ℚ) ^ (52 : ℤ) ≤ q :=
      (two_zpow_le (by omega)).trans (hat.full (by omega))
    exact absurd hless (not_lt.2 (by exact_mod_cast hfull))
  -- the natural is a multiple of the unit
  have hunits : (k : ℚ) = (k * 2 ^ (-t).toNat : ℕ) * 2 ^ t := by
    push_cast
    rw [← zpow_natCast, Int.toNat_of_nonneg (by omega), mul_assoc, ← two_zpow_add, neg_add_cancel,
      zpow_zero, mul_one]
  have hscaled : q / 2 ^ t * 2 ^ t = q := div_mul_cancel₀ q hpos.ne'
  have hbelow : q < 2 ^ 53 * 2 ^ t := by
    have hbelow := hat.below
    rw [two_zpow_add] at hbelow
    exact_mod_cast hbelow
  have hlow := mul_le_mul_of_nonneg_right hat.nearest.low hpos.le
  generalize k * 2 ^ (-t).toNat = units at hunits
  have hle : units ≤ n := by
    have hlt : (units : ℚ) * 2 ^ t < (n + 1 : ℕ) * 2 ^ t := by
      push_cast
      linarith
    exact Nat.lt_succ_iff.1 (by exact_mod_cast lt_of_mul_lt_mul_right hlt hpos.le)
  rw [hunits]
  gcongr

def share : ℚ := 8556839292003942 / 2 ^ 53

theorem stands_share : Stands 0.95 share := by
  have hparts : parts 0.95 = .finite false 8556839292003942 (-53) := by decide +kernel
  rw [Stands, hparts]
  refine congrArg (fun q => some (Extended.ofRat q)) ?_
  norm_num [signed, share]

theorem share_eq : share = 19 / 20 - 8 / (20 * 2 ^ 53) := by
  norm_num [share]

end Decimal

open Decimal

/-- **The index of the 95th percentile.**  It is the product of the count with the double that
stands for 19/20, rounded down. -/
theorem floor_mul_eq_percentileIndex {n : ℕ} (h : n < 2 ^ 48) :
    Number.floor (ofInt n * 0.95) = .ok (percentileIndex n : ℤ) := by
  have hcount : Stands (ofInt n) (n : ℤ) := stands_ofInt (by omega)
  have hsplit : (19 * n : ℚ) = 20 * (19 * n / 20 : ℕ) + (19 * n % 20 : ℕ) := by
    exact_mod_cast (Nat.div_add_mod (19 * n) 20).symm
  have hrest : ((19 * n % 20 : ℕ) : ℚ) ≤ 19 := by
    exact_mod_cast Nat.le_of_lt_succ (Nat.mod_lt (19 * n) (by decide))
  have hn : (n : ℚ) < 2 ^ 48 := by exact_mod_cast h
  have hnonneg : (0 : ℚ) ≤ n := Nat.cast_nonneg n
  have hproduct : ((n : ℤ) : ℚ) * share = n * 19 / 20 - n * 8 / (20 * 2 ^ 53) := by
    rw [share_eq, Int.cast_natCast]
    ring
  generalize hq : ((n : ℤ) : ℚ) * share = q at hproduct
  have hpos : 0 ≤ q := by linarith
  have hsmall : |q| < 2 ^ (1023 : ℤ) := by
    rw [abs_of_nonneg hpos]
    have hless : q < 2 ^ (48 : ℤ) := by
      norm_num
      linarith
    exact hless.trans (zpow_lt_zpow_right₀ one_lt_two (by decide))
  have hnear := standsNear_mul hcount stands_share
  rw [hq] at hnear
  obtain ⟨v, hround, hv⟩ := hnear.exists_stands hsmall
  rw [Number.floor_of_stands hv, percentileIndex]
  refine congrArg Except.ok (Int.floor_eq_iff.2 ⟨?_, ?_⟩)
  · rw [Int.cast_natCast]
    exact hround.natCast_le hpos (by linarith) (by linarith)
  · have hhigh := (abs_le.1 hround.near).2
    rw [abs_of_nonneg hpos] at hhigh
    rw [Int.cast_natCast]
    linarith

end Latency
