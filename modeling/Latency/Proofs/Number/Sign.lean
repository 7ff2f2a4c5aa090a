import Latency.Clock
import Latency.Proofs.Decimal.Parts
/-!
# Numbers above zero

Two numbers are in order unless one of them is not a number at all (`compare?_int_eq_none_iff`).  So
what is not below a limit and not at it is above it or is not a number, and an integer above zero
stays above zero when it becomes a double.
-/

namespace Latency

namespace Decimal

/-! ## Integers as doubles -/

theorem div_le_roundQuotient (num den : Nat) : num / den ≤ roundQuotient num den := by
  unfold roundQuotient
  simp only
  split
  · exact Nat.le_succ _
  · split
    · exact Nat.le_succ _
    · exact Nat.le_refl _

theorem nearestBits_le (num den : Nat) : nearestBits num den ≤ 2047 * Nat.pow 2 52 := by
  unfold nearestBits
  split
  · exact Nat.zero_le _
  · exact Nat.min_le_right _ _

theorem binaryExponent_bounds (num den : Nat) :
    (num.log2 : Int) - den.log2 - 1 ≤ binaryExponent num den ∧
      binaryExponent num den ≤ num.log2 - den.log2 := by
  have hstep (e : Int) (reached : Bool) :
      e - 1 ≤ (if reached then e else e - 1) ∧ (if reached then e else e - 1) ≤ e := by
    cases reached
    · exact ⟨Int.le_refl _, Int.sub_le_self e (by decide)⟩
    · exact ⟨Int.sub_le_self e (by decide), Int.le_refl _⟩
  exact hstep _ _

theorem bits_pos {mantissa : Nat} {exponent : Int} (hmantissa : 0 < mantissa)
    (hexponent : -1074 ≤ exponent) :
    0 < min (if mantissa < Nat.pow 2 52 then mantissa
      else (exponent + 1075).toNat * Nat.pow 2 52 + (mantissa - Nat.pow 2 52))
      (2047 * Nat.pow 2 52) := by
  refine Nat.lt_min.2 ⟨?_, by decide⟩
  split
  · exact hmantissa
  · exact Nat.add_pos_left (Nat.mul_pos (by omega) (Nat.pow_pos (by decide))) _

theorem nearestBits_pos {num : Nat} (h : num ≠ 0) : 0 < nearestBits num 1 := by
  have hle : max (binaryExponent num 1 - 52) (-1074) ≤ num.log2 := by
    have hexponent := (binaryExponent_bounds num 1).2
    have hone : Nat.log2 1 = 0 := by decide
    omega
  have hleast : -1074 ≤ max (binaryExponent num 1 - 52) (-1074) := Int.le_max_right ..
  unfold nearestBits
  rw [if_neg h]
  simp only
  split
  · next e he =>
    rw [he] at hle hleast
    have hreach : 2 ^ e ≤ num := (Nat.le_log2 h).1 (by simpa using hle)
    have hquotient : 0 < num / (1 * Nat.pow 2 e) := by
      rw [Nat.one_mul]
      exact Nat.div_pos hreach (Nat.pow_pos (by decide))
    rw [he]
    exact bits_pos (Nat.lt_of_lt_of_le hquotient (div_le_roundQuotient _ _)) hleast
  · next e he =>
    rw [he] at hleast
    have hquotient : 0 < num * Nat.pow 2 (e + 1) / 1 := by
      rw [Nat.div_one]
      exact Nat.mul_pos (Nat.pos_of_ne_zero h) (Nat.pow_pos (by decide))
    rw [he]
    exact bits_pos (Nat.lt_of_lt_of_le hquotient (div_le_roundQuotient _ _)) hleast

theorem Parts.isPositive_ofBits {bits : Nat} (hpos : 0 < bits) (hle : bits ≤ 2047 * Nat.pow 2 52) :
    (Parts.ofBits bits).isPositive = true := by
  have hfraction : Nat.pow 2 52 = 4503599627370496 := rfl
  have hfields : Nat.pow 2 63 = 9223372036854775808 := rfl
  have hbiased : Nat.pow 2 11 = 2048 := rfl
  simp only [Parts.ofBits, hfraction, hfields, hbiased] at hle ⊢
  have hsign : ¬ bits / 9223372036854775808 = 1 := by omega
  simp only [hsign, decide_false]
  split
  · rw [if_pos (by omega)]
    rfl
  · split
    all_goals
      simp only [isPositive, Bool.not_false, Bool.true_and, decide_eq_true_eq]
      omega

theorem isPositive_ofInt {n : Int} (h : 0 < n) : (parts (ofInt n)).isPositive = true := by
  have hsign : decide (n < 0) = false := decide_eq_false (by omega)
  have hle := nearestBits_le n.natAbs 1
  have hfraction : Nat.pow 2 52 = 4503599627370496 := rfl
  have hword : (UInt64.ofNat (nearestBits n.natAbs 1)).toNat = nearestBits n.natAbs 1 := by
    rw [UInt64.toNat_ofNat']
    rw [hfraction] at hle
    exact Nat.mod_eq_of_lt (by omega)
  rw [ofInt, nearest, hsign, if_neg Bool.false_ne_true, Nat.add_zero, parts_ofBits, hword]
  exact Parts.isPositive_ofBits (nearestBits_pos (by omega)) hle

end Decimal

namespace Number

def isNaN : Number → Bool
  | .int _ => false
  | .float x => Decimal.parts x == .nan

theorem compare?_int (n : Number) (k : Int) :
    compare? (.int k) n = (compare? n (.int k)).map Ordering.swap := by
  cases n with
  | int m => exact congrArg some (Std.OrientedOrd.eq_swap)
  | float x =>
    simp only [compare?]
    cases Decimal.parts x with
    | nan => rfl
    | infinite negative => cases negative <;> rfl
    | finite negative m e => rfl

theorem compare?_int_eq_none_iff (n : Number) (k : Int) :
    compare? n (.int k) = none ↔ n.isNaN = true := by
  cases n with
  | int m => simp [compare?, isNaN]
  | float x =>
    simp only [compare?, isNaN]
    cases Decimal.parts x <;> simp

/-- What is neither below a limit nor at it is above it, unless it is no number. -/
theorem less_of_not_less {n : Number} {k : Int} (hless : n.less (.int k) = false)
    (hequals : n.equals (.int k) = false) : Number.less (.int k) n = !n.isNaN := by
  unfold less equals at *
  rw [compare?_int]
  cases hcompare : compare? n (.int k) with
  | none => rw [(compare?_int_eq_none_iff n k).1 hcompare]; rfl
  | some order =>
    have hnumber : n.isNaN = false := by
      rw [Bool.eq_false_iff, Ne, ← compare?_int_eq_none_iff n k, hcompare]
      exact Option.some_ne_none order
    rw [hnumber]
    rw [hcompare] at hless hequals
    cases order with
    | lt => exact absurd hless (by decide)
    | eq => exact absurd hequals (by decide)
    | gt => rfl

theorem ratio_pos (m : Nat) (e : Int) : 0 < (Decimal.ratio m e).1 ↔ 0 < m := by
  cases e with
  | ofNat e => exact Nat.mul_pos_iff_of_pos_right (Nat.pow_pos (by decide))
  | negSucc e => exact Iff.rfl

theorem compareFinite_zero (negative : Bool) (m : Nat) (e : Int) :
    (some (compareFinite negative m e 0).swap == some .lt) = (!negative && decide (0 < m)) := by
  have hswap (o : Ordering) : (some o.swap == some .lt) = decide (o = .gt) := by
    cases o <;> rfl
  rw [hswap, compareFinite]
  simp only [Int.zero_mul, Std.compare_eq_gt]
  cases negative with
  | true => exact decide_eq_false (by simp)
  | false => simpa using ratio_pos m e

/-- A double is above zero exactly if its parts are. -/
theorem zero_less_float (x : Float) :
    Number.less (.int 0) (.float x) = (Decimal.parts x).isPositive := by
  unfold less compare?
  simp only
  cases Decimal.parts x with
  | nan => rfl
  | infinite negative => cases negative <;> rfl
  | finite negative m e => exact compareFinite_zero negative m e

theorem less_of_not_le_zero {x : Float} (h : ¬ x ≤ 0.0) :
    Number.less (.int 0) (.float x) = !isNaN (.float x) := by
  rw [Decimal.le_zero_iff, not_not] at h
  rw [zero_less_float, isNaN]
  rcases h with h | h
  · cases hparts : Decimal.parts x with
    | nan =>
      rw [hparts] at h
      cases h
    | infinite negative =>
      rw [hparts] at h
      rw [h]
      rfl
    | finite negative m e =>
      rw [hparts] at h
      rw [h]
      rfl
  · rw [h]
    rfl

/-! ## The zero of a clock -/

theorem zero_before_float (x : Float) :
    Clock.before (Clock.zero : Number) (.float x) = (Decimal.parts x).isPositive := by
  change ((if 0.0 < x then some .lt else if x < 0.0 then some .gt
    else if 0.0 == x then some .eq else none) == some Ordering.lt) = _
  by_cases hlt : 0.0 < x
  · rw [if_pos hlt, (Decimal.zero_lt_iff x).1 hlt]
    rfl
  · rw [if_neg hlt, Bool.eq_false_iff.2 (mt (Decimal.zero_lt_iff x).2 hlt)]
    split
    · rfl
    · split <;> rfl

/-- A number above zero gives a time above zero, and what is no number gives none. -/
theorem zero_before_toFloat {n : Number} {x : Float} (h : n.toFloat = .ok x)
    (hless : Number.less (.int 0) n = !n.isNaN) :
    Clock.before (Clock.zero : Number) (.float x) = !n.isNaN := by
  rw [zero_before_float]
  cases n with
  | float y =>
    obtain rfl := Except.ok.inj h
    rwa [zero_less_float] at hless
  | int k =>
    have hpos : 0 < k := by
      simpa [less, compare?, isNaN, Std.compare_eq_lt] using hless
    unfold toFloat at h
    simp only at h
    split at h
    · cases h
    · obtain rfl := Except.ok.inj h
      exact Decimal.isPositive_ofInt hpos

end Number

end Latency
