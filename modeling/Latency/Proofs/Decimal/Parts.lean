import Latency.Decimal.Binary64
import Mathlib
/-!
# Doubles taken apart

The parts of a double are read off its bits, while its comparisons are decided on its unpacked form.
Both say the same of every double (`parts_eq`), so a comparison with zero is a fact about the parts,
and a double that is made of bits has the parts of these bits (`parts_ofBits`).
-/

namespace Latency.Decimal

open Float.Model
open Float.Model.UnpackedFloat (unpackMantissa unpackExponent unpackSign Sign)

/-! ## The fields of a word -/

section Fields

variable (b : BitVec Format.binary64.numBits)

theorem toNat_unpackMantissa : (unpackMantissa b).toNat = b.toNat % Nat.pow 2 52 := by
  simp [unpackMantissa, BitVec.extractLsb_toNat]

theorem toNat_unpackExponent :
    (unpackExponent b).toNat = b.toNat / Nat.pow 2 52 % Nat.pow 2 11 := by
  simp [unpackExponent, BitVec.extractLsb_toNat, Nat.shiftRight_eq_div_pow]

theorem toNat_unpackSign : (unpackSign b).toNat = b.toNat / Nat.pow 2 63 := by
  have hlt : b.toNat < 2 ^ 64 := b.isLt
  simp [unpackSign, BitVec.extractLsb_toNat, Nat.shiftRight_eq_div_pow]
  omega

theorem toNat_implicit (m : BitVec 52) : (1#1 ++ m).toNat = m.toNat + 2 ^ 52 := by
  change 2 ^ 52 ||| m.toNat = _
  rw [Nat.or_comm, Nat.or_two_pow_eq_add_of_lt m.isLt]

end Fields

/-! ## Parts and unpacked doubles -/

def Parts.ofUnpacked : UnpackedFloat → Parts
  | .infinity s => .infinite (s == .negative)
  | .notANumber => .nan
  | .zero s => .finite (s == .negative) 0 (-1074)
  | .finite s m e _ => .finite (s == .negative) m e

theorem sign_eq (b : BitVec Format.binary64.numBits) :
    decide (b.toNat / Nat.pow 2 63 = 1) = (Sign.ofBitVec (unpackSign b) == .negative) := by
  rw [← toNat_unpackSign]
  generalize unpackSign b = s
  revert s
  decide

theorem eq_allOnes_iff (e : BitVec 11) : e = -1#11 ↔ e.toNat = 2047 := by
  rw [← BitVec.toNat_inj]
  rfl

theorem eq_zero_iff {w : Nat} (v : BitVec w) : v = 0#w ↔ v.toNat = 0 := by
  rw [← BitVec.toNat_inj, BitVec.toNat_ofNat, Nat.zero_mod]

theorem Parts.ofBits_eq (b : BitVec Format.binary64.numBits) :
    Parts.ofBits b.toNat = Parts.ofUnpacked (UnpackedFloat.unpack Format.binary64 b) := by
  have hbias : (Format.binary64.exponentBias : Int) = 1023 := rfl
  unfold Parts.ofBits UnpackedFloat.unpack
  simp only [sign_eq, ← toNat_unpackMantissa, ← toNat_unpackExponent, eq_allOnes_iff, eq_zero_iff,
    hbias]
  by_cases hinf : (unpackExponent b).toNat = 2047
  · rw [if_pos hinf, if_pos hinf]
    split <;> rfl
  rw [if_neg hinf, if_neg hinf]
  by_cases hsub : (unpackExponent b).toNat = 0
  · rw [if_pos hsub, if_pos hsub]
    split
    · next hmantissa =>
      rw [hmantissa]
      rfl
    · rw [hsub]
      rfl
  · rw [if_neg hsub, if_neg hsub]
    simp only [Parts.ofUnpacked, toNat_implicit]
    congr 1

theorem parts_eq (x : Float) : parts x = Parts.ofUnpacked x.toModel.unpack :=
  Parts.ofBits_eq x.toModel.toBits.toBitVec

/-! ## Doubles made of bits -/

theorem unpack_of_isNaNBits {b : BitVec Format.binary64.numBits}
    (h : UnpackedFloat.isNaNBits b = true) :
    UnpackedFloat.unpack Format.binary64 b = .notANumber := by
  obtain ⟨hexponent, hmantissa⟩ := of_decide_eq_true h
  unfold UnpackedFloat.unpack
  simp only [hexponent, if_neg hmantissa]
  rfl

/-- A double that is made of bits has the parts of these bits, if it is no number as well. -/
theorem parts_ofBits (bits : UInt64) : parts (Float.ofBits bits) = Parts.ofBits bits.toNat := by
  have hparts : parts (Float.ofBits bits) = Parts.ofUnpacked (UnpackedFloat.unpack Format.binary64
      (UnpackedFloat.pack Format.binary64
        (UnpackedFloat.unpack Format.binary64 bits.toBitVec))) := parts_eq _
  have hbits : Parts.ofBits bits.toNat =
      Parts.ofUnpacked (UnpackedFloat.unpack Format.binary64 bits.toBitVec) :=
    Parts.ofBits_eq bits.toBitVec
  rw [hparts, hbits, UnpackedFloat.pack_unpack]
  split
  · next hnan => rw [unpack_of_isNaNBits hnan, UnpackedFloat.unpack_packedNaN]
  · rfl

/-! ## Doubles above zero -/

def Parts.isPositive : Parts → Bool
  | .finite negative m _ => !negative && decide (0 < m)
  | .infinite negative => !negative
  | .nan => false

theorem unpack_zero : (0.0 : Float).toModel.unpack = .zero .positive := by
  rfl

/-- What is not at most zero is above zero or no number. -/
theorem isLE_compare_zero (u : UnpackedFloat) : (u.compare (.zero .positive)).any (·.isLE) =
    !((Parts.ofUnpacked u).isPositive || Parts.ofUnpacked u == .nan) := by
  cases u with
  | infinity s => cases s <;> rfl
  | notANumber => rfl
  | zero s => cases s <;> rfl
  | finite s m e hm =>
    cases s with
    | negative => rfl
    | positive =>
      have hpositive : (Parts.ofUnpacked (.finite .positive m e hm)).isPositive = true :=
        decide_eq_true hm
      rw [hpositive]
      rfl

theorem zero_compare (u : UnpackedFloat) : (UnpackedFloat.zero .positive).lt u =
    (Parts.ofUnpacked u).isPositive := by
  cases u with
  | infinity s => cases s <;> rfl
  | notANumber => rfl
  | zero s => cases s <;> rfl
  | finite s m e hm =>
    cases s with
    | negative => rfl
    | positive => exact (decide_eq_true hm).symm

theorem le_zero_iff (x : Float) :
    x ≤ 0.0 ↔ ¬ ((parts x).isPositive = true ∨ parts x = .nan) := by
  have hle : x ≤ 0.0 ↔ (x.toModel.unpack.compare (.zero .positive)).any (·.isLE) = true := by
    rw [← unpack_zero]
    change decide (_ = true) = true ↔ _
    rw [decide_eq_true_iff]
    exact Iff.rfl
  rw [hle, isLE_compare_zero, parts_eq]
  simp

theorem zero_lt_iff (x : Float) : 0.0 < x ↔ (parts x).isPositive = true := by
  have hlt : 0.0 < x ↔ (UnpackedFloat.zero .positive).lt x.toModel.unpack = true := by
    rw [← unpack_zero]
    change decide (_ = true) = true ↔ _
    rw [decide_eq_true_iff]
    exact Iff.rfl
  rw [hlt, zero_compare, parts_eq]

end Latency.Decimal
