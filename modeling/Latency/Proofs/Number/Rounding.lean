import Latency.Proofs.Number.Value
/-!
# Rounding to doubles

A number is rounded to a multiple of a power of two that leaves it the digits of a double, the even
one of two that are equally near (`Rounds`).  The multiples grow with the number, none is off by more
than half a unit, and no double is nearer.  The unpacked form of a double is rounded so: digits are
shifted out of a mantissa, and two bits remember what they were (`Shows`).
-/

namespace Latency.Decimal

open Float.Model
open Float.Model.UnpackedFloat (Accuracy ExtendedMantissa Sign roundWithAccuracy
  shiftToTargetExponent unpackMantissa_packComponents unpackExponent_packComponents
  unpackSign_packComponents)

/-! ## The nearest natural -/

/-- The natural that a number is rounded to: the nearest one, or the even one of two. -/
structure NearestEven (x : ℚ) (n : ℕ) : Prop where
  low : x ≤ n + 1 / 2
  high : n ≤ x + 1 / 2
  even : x = n + 1 / 2 ∨ n = x + 1 / 2 → n % 2 = 0

section Nearest

variable {x y : ℚ} {n k : ℕ}

theorem NearestEven.mono (hx : NearestEven x n) (hy : NearestEven y k) (hxy : x ≤ y) : n ≤ k := by
  by_contra hlt
  have hnext : k + 1 ≤ n := Nat.lt_of_not_le hlt
  have hnext' : (k + 1 : ℚ) ≤ n := by exact_mod_cast hnext
  have hn : n = x + 1 / 2 := by linarith [hx.high, hy.low]
  have hk : y = k + 1 / 2 := by linarith [hx.high, hy.low]
  have hone : (n : ℚ) = k + 1 := by linarith
  have hone' : n = k + 1 := by exact_mod_cast hone
  have heven := hx.even (.inr hn)
  have heven' := hy.even (.inl hk)
  omega

theorem NearestEven.natCast (n : ℕ) : NearestEven n n where
  low := by linarith
  high := by linarith
  even h := by rcases h with h | h <;> linarith

theorem NearestEven.closest (h : NearestEven x n) (k : ℤ) : |(n : ℚ) - x| ≤ |(k : ℚ) - x| := by
  have hnear : |(n : ℚ) - x| ≤ 1 / 2 := by
    rw [abs_le]
    constructor <;> linarith [h.low, h.high]
  obtain hlt | heq | hgt := lt_trichotomy k n
  · have hle : (k : ℚ) ≤ n - 1 := by exact_mod_cast Int.le_sub_one_of_lt hlt
    refine hnear.trans (le_abs.2 (.inr ?_))
    linarith [h.high]
  · rw [heq]
    exact le_refl _
  · have hle : (n : ℚ) + 1 ≤ k := by exact_mod_cast Int.add_one_le_of_lt hgt
    refine hnear.trans (le_abs.2 (.inl ?_))
    linarith [h.low]

end Nearest

/-! ## A mantissa and two bits -/

/-- What a mantissa and its two bits show of a number: where it stands between the mantissa, a half
more and one more. -/
def Shows : ExtendedMantissa → ℚ → Prop
  | ⟨m, false, false⟩, x => x = m
  | ⟨m, false, true⟩, x => m < x ∧ x < m + 1 / 2
  | ⟨m, true, false⟩, x => x = m + 1 / 2
  | ⟨m, true, true⟩, x => m + 1 / 2 < x ∧ x < m + 1

section Shifting

variable {left : ExtendedMantissa} {x : ℚ}

theorem Shows.bounds (h : Shows left x) : left.mantissa ≤ x ∧ x < left.mantissa + 1 := by
  obtain ⟨m, round, sticky⟩ := left
  cases round <;> cases sticky <;> simp only [Shows] at h ⊢ <;> constructor <;> linarith

theorem Shows.shiftRightOne (h : Shows left x) : Shows left.shiftRightOne (x / 2) := by
  obtain ⟨m, round, sticky⟩ := left
  have hsplit : (m : ℚ) = 2 * (m / 2 : ℕ) + (m % 2 : ℕ) := by
    exact_mod_cast (Nat.div_add_mod m 2).symm
  obtain hdigit | hdigit := Nat.mod_two_eq_zero_or_one m
  · rw [hdigit, Nat.cast_zero] at hsplit
    cases round <;> cases sticky <;>
      simp only [Shows, ExtendedMantissa.shiftRightOne, hdigit] at h ⊢ <;> grind
  · rw [hdigit, Nat.cast_one] at hsplit
    cases round <;> cases sticky <;>
      simp only [Shows, ExtendedMantissa.shiftRightOne, hdigit] at h ⊢ <;> grind

theorem Shows.shiftRight (h : Shows left x) (count : ℕ) :
    Shows (left >>> count) (x / 2 ^ count) := by
  induction count with
  | zero =>
    rw [pow_zero, div_one]
    exact h
  | succ count ih =>
    rw [pow_succ, ← div_div]
    exact ih.shiftRightOne

theorem Shows.nearestEven (h : Shows left x) : NearestEven x left.roundedMantissa := by
  obtain ⟨m, round, sticky⟩ := left
  cases round with
  | false =>
    have hdown : NearestEven x m := by
      cases sticky <;> simp only [Shows] at h <;>
        exact ⟨by linarith, by linarith, by rintro (h' | h') <;> linarith⟩
    cases sticky <;> exact hdown
  | true =>
    cases sticky with
    | true =>
      have hup : NearestEven x (m + 1 : ℕ) := by
        simp only [Shows] at h
        refine ⟨?_, ?_, ?_⟩ <;> push_cast
        · linarith
        · linarith
        · rintro (h' | h') <;> linarith
      exact hup
    | false =>
      have htie : NearestEven x (m + m % 2 : ℕ) := by
        simp only [Shows] at h
        obtain hdigit | hdigit := Nat.mod_two_eq_zero_or_one m <;> rw [hdigit] <;>
          refine ⟨?_, ?_, fun _ => by omega⟩ <;> push_cast <;> linarith
      exact htie

end Shifting

/-! ## Numbers at or above zero -/

/-- A number is rounded to a multiple of a power of two, which leaves it 53 digits unless it is the
least power there is. -/
structure RoundsAt (q : ℚ) (t : ℤ) (n : ℕ) : Prop where
  least : -1074 ≤ t
  below : q < 2 ^ (53 + t)
  full : -1074 < t → 2 ^ (52 + t) ≤ q
  nearest : NearestEven (q / 2 ^ t) n

section Positive

variable {p q : ℚ} {s t : ℤ} {n k : ℕ}

theorem two_zpow_pos (t : ℤ) : (0 : ℚ) < 2 ^ t :=
  zpow_pos two_pos t

theorem two_zpow_add (s t : ℤ) : (2 : ℚ) ^ (s + t) = 2 ^ s * 2 ^ t :=
  zpow_add₀ two_ne_zero s t

theorem two_zpow_le (h : s ≤ t) : (2 : ℚ) ^ s ≤ 2 ^ t :=
  zpow_le_zpow_right₀ one_le_two h

theorem RoundsAt.le_two_pow (h : RoundsAt q t n) : n ≤ 2 ^ 53 := by
  have hquotient : q / 2 ^ t < 2 ^ (53 : ℤ) := by
    rw [div_lt_iff₀ (two_zpow_pos t), ← two_zpow_add]
    exact h.below
  have hn : (n : ℚ) < 2 ^ 53 + 1 := by
    have hnear := h.nearest.high
    norm_num at hquotient
    linarith
  exact Nat.lt_succ_iff.1 (by exact_mod_cast hn)

theorem RoundsAt.eq_zero (h : RoundsAt 0 t n) : n = 0 := by
  have hn : (n : ℚ) < 1 := by
    have hnear := h.nearest.high
    rw [zero_div] at hnear
    linarith
  exact Nat.lt_one_iff.1 (by exact_mod_cast hn)

theorem RoundsAt.two_pow_le (h : RoundsAt q t n) (ht : -1074 < t) : 2 ^ 52 ≤ n := by
  have hquotient : 2 ^ (52 : ℤ) ≤ q / 2 ^ t := by
    rw [le_div_iff₀ (two_zpow_pos t), ← two_zpow_add]
    exact h.full ht
  have hn : (2 ^ 52 : ℚ) < n + 1 := by
    have hnear := h.nearest.low
    norm_num at hquotient
    linarith
  exact Nat.lt_succ_iff.1 (by exact_mod_cast hn)

theorem RoundsAt.mono (hp : RoundsAt p s k) (hq : RoundsAt q t n) (hpq : p ≤ q) :
    (k * 2 ^ s : ℚ) ≤ n * 2 ^ t := by
  obtain hlt | rfl | hgt := lt_trichotomy s t
  · have hk : (k : ℚ) ≤ 2 ^ (53 : ℤ) := by exact_mod_cast hp.le_two_pow
    have hn : (2 : ℚ) ^ (52 : ℤ) ≤ n := by
      exact_mod_cast hq.two_pow_le (lt_of_le_of_lt hp.least hlt)
    calc (k * 2 ^ s : ℚ) ≤ 2 ^ (53 : ℤ) * 2 ^ s := by gcongr
      _ = 2 ^ (53 + s) := (two_zpow_add 53 s).symm
      _ ≤ 2 ^ (52 + t) := two_zpow_le (by omega)
      _ = 2 ^ (52 : ℤ) * 2 ^ t := two_zpow_add 52 t
      _ ≤ n * 2 ^ t := by gcongr
  · have hle : k ≤ n := hp.nearest.mono hq.nearest (by gcongr)
    gcongr
  · -- the unit of the greater number is not smaller
    have hcontra : (2 : ℚ) ^ (53 + t) ≤ q :=
      calc (2 : ℚ) ^ (53 + t) ≤ 2 ^ (52 + s) := two_zpow_le (by omega)
        _ ≤ p := hp.full (lt_of_le_of_lt hq.least hgt)
        _ ≤ q := hpq
    exact absurd hq.below (not_lt.2 hcontra)

theorem RoundsAt.near (h : RoundsAt q t n) (hq : 0 ≤ q) :
    |n * 2 ^ t - q| ≤ (q + 1) / 2 ^ 53 := by
  have hpos := two_zpow_pos t
  have hscaled : q / 2 ^ t * 2 ^ t = q := div_mul_cancel₀ q hpos.ne'
  have hhalf : |n * 2 ^ t - q| ≤ 2 ^ t / 2 := by
    have hlow := mul_le_mul_of_nonneg_right h.nearest.low hpos.le
    have hhigh := mul_le_mul_of_nonneg_right h.nearest.high hpos.le
    rw [abs_le]
    constructor <;> linarith
  refine hhalf.trans ?_
  obtain hleast | hlt := h.least.eq_or_lt
  · have hunit : (2 : ℚ) ^ t ≤ 2 ^ (-53 : ℤ) := two_zpow_le (by omega)
    norm_num at hunit ⊢
    linarith
  · have hfull := h.full hlt
    rw [two_zpow_add] at hfull
    norm_num at hfull ⊢
    linarith

theorem RoundsAt.closest_multiple (h : RoundsAt q t n) (k : ℤ) :
    |n * 2 ^ t - q| ≤ |k * 2 ^ t - q| := by
  have hpos := two_zpow_pos t
  have hscaled := mul_le_mul_of_nonneg_right (h.nearest.closest k) hpos.le
  rw [← abs_of_pos hpos, ← abs_mul, ← abs_mul, abs_of_pos hpos, sub_mul, sub_mul,
    div_mul_cancel₀ q hpos.ne'] at hscaled
  exact hscaled

/-- A double whose unit is no smaller is a multiple of the unit. -/
theorem exists_multiple_of_le {e : ℤ} (hte : t ≤ e) (negative : Bool) (m : ℕ) :
    ∃ k : ℤ, signed negative m e = k * 2 ^ t := by
  have hshift : (2 : ℚ) ^ e = (2 ^ (e - t).toNat : ℤ) * 2 ^ t := by
    push_cast
    rw [← zpow_natCast, ← two_zpow_add]
    congr 1
    omega
  cases negative
  · refine ⟨m * 2 ^ (e - t).toNat, ?_⟩
    rw [signed, if_neg Bool.false_ne_true, hshift]
    push_cast
    ring
  · refine ⟨-(m * 2 ^ (e - t).toNat), ?_⟩
    rw [signed, if_pos rfl, hshift]
    push_cast
    ring

/-- A double whose unit is smaller is below all that has a full mantissa in the unit. -/
theorem Canonical.signed_le_two_pow {m : ℕ} {e : ℤ} (hm : Canonical m e) (het : e < t)
    (negative : Bool) : signed negative m e ≤ 2 ^ (52 + t) := by
  have hmantissa : (m : ℚ) ≤ 2 ^ (53 : ℤ) := by exact_mod_cast hm.bound.le
  have hle : (m * 2 ^ e : ℚ) ≤ 2 ^ (52 + t) :=
    calc (m * 2 ^ e : ℚ) ≤ 2 ^ (53 : ℤ) * 2 ^ e := by
          have := (two_zpow_pos e).le
          gcongr
      _ = 2 ^ (53 + e) := (two_zpow_add 53 e).symm
      _ ≤ 2 ^ (52 + t) := two_zpow_le (by omega)
  have hnonneg : (0 : ℚ) ≤ m * 2 ^ e := mul_nonneg (Nat.cast_nonneg m) (two_zpow_pos e).le
  cases negative <;> simp only [signed, if_true, if_false, Bool.false_eq_true] <;> linarith

/-- No double is nearer. -/
theorem RoundsAt.closest (h : RoundsAt q t n) {m : ℕ} {e : ℤ} (hm : Canonical m e)
    (negative : Bool) : |n * 2 ^ t - q| ≤ |signed negative m e - q| := by
  by_cases hte : t ≤ e
  · obtain ⟨k, hk⟩ := exists_multiple_of_le hte negative m
    rw [hk]
    exact h.closest_multiple k
  · -- the power of two between such a double and `q` is a multiple, and no farther off
    have hfull : (2 : ℚ) ^ (52 + t) ≤ q := h.full (hm.least.trans_lt (by omega))
    have hbound := hm.signed_le_two_pow (t := t) (by omega) negative
    have hpower := h.closest_multiple (2 ^ 52)
    have hcast : (((2 ^ 52 : ℤ) : ℚ) * 2 ^ t) = 2 ^ (52 + t) := by
      rw [two_zpow_add]
      norm_num
    rw [hcast] at hpower
    refine hpower.trans ?_
    rw [abs_sub_comm, abs_sub_comm _ q, abs_of_nonneg (by linarith), abs_of_nonneg (by linarith)]
    linarith

end Positive

/-! ## Numbers of both signs -/

/-- A number is rounded to the double nearest to it. -/
def Rounds (q v : ℚ) : Prop :=
  ∃ (negative : Bool) (p : ℚ) (t : ℤ) (n : ℕ), 0 ≤ p ∧ RoundsAt p t n ∧
    q = (if negative then -p else p) ∧ v = signed negative n t

theorem Rounds.mono {p q v w : ℚ} (hp : Rounds p v) (hq : Rounds q w) (hpq : p ≤ q) : v ≤ w := by
  obtain ⟨negative, p, s, k, hp0, hps, rfl, rfl⟩ := hp
  obtain ⟨negative', q, t, n, hq0, hqt, rfl, rfl⟩ := hq
  have hk : (0 : ℚ) ≤ k * 2 ^ s := mul_nonneg (Nat.cast_nonneg k) (two_zpow_pos s).le
  have hn : (0 : ℚ) ≤ n * 2 ^ t := mul_nonneg (Nat.cast_nonneg n) (two_zpow_pos t).le
  cases negative <;> cases negative' <;>
    simp only [signed, if_true, if_false, Bool.false_eq_true] at hpq ⊢
  · exact hps.mono hqt hpq
  · -- zero, from above and from below
    obtain rfl : p = 0 := by linarith
    obtain rfl : q = 0 := by linarith
    rw [hps.eq_zero, hqt.eq_zero]
    simp
  · linarith
  · exact neg_le_neg (hqt.mono hps (neg_le_neg_iff.1 hpq))

theorem Rounds.near {q v : ℚ} (h : Rounds q v) : |v - q| ≤ (|q| + 1) / 2 ^ 53 := by
  obtain ⟨negative, p, t, n, hp, hround, rfl, rfl⟩ := h
  have hnear := hround.near hp
  cases negative
  · simp only [signed, Bool.false_eq_true, if_false, abs_of_nonneg hp]
    exact hnear
  · simp only [signed, if_true, abs_neg, abs_of_nonneg hp]
    rwa [neg_sub_neg, abs_sub_comm]

/-! ## The unpacked form -/

theorem targetExponent_eq (m : ℕ) (e : ℤ) :
    Format.binary64.targetExponent (totalExponent m e) = max (m.log2 + e - 52) (-1074) := by
  have hleast : Format.binary64.minExponent = -1074 := rfl
  have hdigits : (Format.binary64.mantissaBits : ℤ) = 53 := rfl
  rw [Format.targetExponent, totalExponent, hleast, hdigits]
  congr 1
  omega

section Rounding

variable {m n : ℕ} {e t : ℤ} {accuracy : Accuracy} {x q : ℚ}

theorem mantissa_ofMantissaAndAccuracy (m : ℕ) (accuracy : Accuracy) :
    (ExtendedMantissa.ofMantissaAndAccuracy m accuracy).mantissa = m := by
  cases accuracy with
  | exact => rfl
  | inexact place => cases place <;> rfl

/-- Digits are shifted out until the mantissa fits.  They have to be enough for that, unless the
exponent is the least there is. -/
theorem roundsAt_shiftToTargetExponent
    (hx : Shows (ExtendedMantissa.ofMantissaAndAccuracy m accuracy) x)
    (hdigits : 52 ≤ m.log2 ∨ e ≤ -1074) {left : ExtendedMantissa}
    (hleft : shiftToTargetExponent .binary64 m e accuracy = (left, t)) :
    RoundsAt (x * 2 ^ e) t left.roundedMantissa := by
  obtain ⟨hlow, hhigh⟩ := hx.bounds
  rw [mantissa_ofMantissaAndAccuracy] at hlow hhigh
  rw [shiftToTargetExponent, targetExponent_eq, UnpackedFloat.shiftToExponent] at hleft
  obtain ⟨rfl, rfl⟩ := Prod.mk.inj hleft
  generalize hcount : (max (↑m.log2 + e - 52) (-1074) - e).toNat = count
  have hnonneg : (0 : ℚ) ≤ x := (Nat.cast_nonneg m).trans hlow
  refine ⟨by omega, ?_, fun hlt => ?_, ?_⟩
  · have hlog : x < 2 ^ ((m.log2 : ℤ) + 1) := by
      have hnext : (m + 1 : ℚ) ≤ 2 ^ (m.log2 + 1) := by exact_mod_cast Nat.lt_log2_self
      exact_mod_cast hhigh.trans_le hnext
    calc x * 2 ^ e < 2 ^ ((m.log2 : ℤ) + 1) * 2 ^ e := by
          have := two_zpow_pos e
          gcongr
      _ = 2 ^ ((m.log2 : ℤ) + 1 + e) := (two_zpow_add _ _).symm
      _ ≤ 2 ^ (53 + (e + count)) := two_zpow_le (by omega)
  · have hne : m ≠ 0 := by
      rintro rfl
      rw [Nat.log2_zero] at *
      omega
    have hlog : (2 : ℚ) ^ (m.log2 : ℤ) ≤ x := by
      have hself : (2 : ℚ) ^ m.log2 ≤ m := by exact_mod_cast Nat.log2_self_le hne
      exact_mod_cast hself.trans hlow
    calc (2 : ℚ) ^ (52 + (e + count)) ≤ 2 ^ ((m.log2 : ℤ) + e) := two_zpow_le (by omega)
      _ = 2 ^ (m.log2 : ℤ) * 2 ^ e := two_zpow_add _ _
      _ ≤ x * 2 ^ e := by
          have := two_zpow_pos e
          gcongr
  · have hscaled : x * 2 ^ e / 2 ^ (e + (count : ℤ)) = x / 2 ^ count := by
      rw [two_zpow_add, zpow_natCast, mul_comm x, mul_div_mul_left _ _ (two_zpow_pos e).ne']
    rw [hscaled]
    exact (hx.shiftRight count).nearestEven

/-- A rounded mantissa with its exponent.  It has one digit too many if all of them were carried. -/
def carried (sign : Sign) (n : ℕ) (t : ℤ) : UnpackedFloat :=
  if h : n = 0 then .zero sign
  else if n = 2 ^ 53 then .finite sign (2 ^ 52) (t + 1) (by decide)
  else .finite sign n t (Nat.pos_of_ne_zero h)

theorem shiftToTargetExponent_exact (hn : n ≤ 2 ^ 53) (ht : -1074 ≤ t) :
    shiftToTargetExponent .binary64 n t .exact =
      if n = 2 ^ 53 then (⟨2 ^ 52, false, false⟩, t + 1) else (⟨n, false, false⟩, t) := by
  rw [shiftToTargetExponent, targetExponent_eq, UnpackedFloat.shiftToExponent]
  split
  · next hcarry =>
    have hone : (max (↑n.log2 + t - 52) (-1074) - t).toNat = 1 := by
      rw [hcarry, Nat.log2_two_pow]
      omega
    simp only [hone]
    rw [hcarry]
    rfl
  · next hless =>
    have hlog : n.log2 < 53 := by
      obtain rfl | hne := eq_or_ne n 0
      · decide
      · exact (Nat.log2_lt hne).2 (lt_of_le_of_ne hn hless)
    have hzero : (max (↑n.log2 + t - 52) (-1074) - t).toNat = 0 := by omega
    simp only [hzero, Int.ofNat_zero, Int.add_zero]
    rfl

theorem roundWithAccuracy_eq (hx : Shows (ExtendedMantissa.ofMantissaAndAccuracy m accuracy) x)
    (hdigits : 52 ≤ m.log2 ∨ e ≤ -1074) (sign : Sign) :
    ∃ t n, RoundsAt (x * 2 ^ e) t n ∧
      roundWithAccuracy .binary64 sign m e accuracy = carried sign n t := by
  obtain ⟨⟨left, t⟩, hleft⟩ : ∃ shifted,
      shiftToTargetExponent .binary64 m e accuracy = shifted := ⟨_, rfl⟩
  have hround := roundsAt_shiftToTargetExponent hx hdigits hleft
  refine ⟨t, left.roundedMantissa, hround, ?_⟩
  have hcarry := shiftToTargetExponent_exact hround.le_two_pow hround.least
  -- the second shift is named, since a proof about its mantissa depends on it
  have hunfold : ∀ final, shiftToTargetExponent .binary64 left.roundedMantissa t .exact = final →
      roundWithAccuracy .binary64 sign m e accuracy =
        if h : final.1.mantissa = 0 then .zero sign
        else .finite sign final.1.mantissa final.2 (Nat.pos_of_ne_zero h) := by
    rintro _ rfl
    unfold roundWithAccuracy
    rw [hleft]
  rw [hunfold _ hcarry, carried]
  split
  · next hall =>
    have hfirst : (2 ^ 52 : ℕ) ≠ 0 := by decide
    rw [dif_neg hfirst, dif_neg (by rw [hall]; decide)]
  · rfl

end Rounding

/-! ## Packing -/

section Packing

variable {m : ℕ} {e : ℤ}

theorem unpack_packComponents (sign : Sign) (exponent : BitVec 11) (mantissa : BitVec 52)
    (hfinite : exponent.toNat ≠ 2047) :
    Parts.ofUnpacked (UnpackedFloat.unpack .binary64
        (UnpackedFloat.packComponents .binary64 sign exponent mantissa)) =
      if exponent.toNat = 0 then .finite (sign == .negative) mantissa.toNat (-1074)
      else .finite (sign == .negative) (mantissa.toNat + 2 ^ 52) (exponent.toNat - 1075) := by
  have hbias : (Format.binary64.exponentBias : ℤ) = 1023 := rfl
  unfold UnpackedFloat.unpack
  simp only [unpackMantissa_packComponents, unpackExponent_packComponents,
    unpackSign_packComponents, UnpackedFloat.Sign.ofBitVec_toBitVec, eq_allOnes_iff, eq_zero_iff,
    if_neg hfinite, hbias]
  split
  · next hzero =>
    split
    · next hmantissa => rw [hmantissa]; rfl
    · rw [hzero]; rfl
  · simp only [Parts.ofUnpacked, toNat_implicit]
    congr 1

theorem parts_pack_finite (hm : Canonical m e) (hpos : 0 < m) (sign : Sign) :
    Parts.ofUnpacked (UnpackedFloat.unpack .binary64
        (UnpackedFloat.pack .binary64 (.finite sign m e hpos))) =
      if e ≤ 971 then .finite (sign == .negative) m e else .infinite (sign == .negative) := by
  obtain ⟨hleast, hbound, hfull⟩ := hm
  have hbiased : (e + Format.binary64.exponentBias +
      Format.binary64.mantissaBitsWithoutImplicit).toNat = (e + 1075).toNat := by
    congr 1
    change e + 1023 + ((52 : ℕ) : ℤ) = _
    omega
  have hfield : 2 ^ Format.binary64.exponentBits = 2048 := rfl
  have hdigits : Format.binary64.mantissaBits = 53 := rfl
  unfold UnpackedFloat.pack
  simp only [hbiased, hfield, hdigits]
  by_cases hmost : e ≤ 971
  · rw [if_neg (by omega), if_pos hmost]
    by_cases hnormal : m.log2 + 1 = 53
    · obtain ⟨hlow, -⟩ := (Nat.log2_eq_iff hpos.ne').1 (Nat.succ.inj hnormal)
      have hexponent : (BitVec.ofNat 11 (e + 1075).toNat).toNat = (e + 1075).toNat := by
        rw [BitVec.toNat_ofNat]
        exact Nat.mod_eq_of_lt (by omega)
      rw [if_pos hnormal, unpack_packComponents _ _ _ (by omega), hexponent, if_neg (by omega),
        BitVec.toNat_ofNat]
      congr 1 <;> omega
    · have hlog : m.log2 < 52 := by
        have hlt := (Nat.log2_lt hpos.ne').2 hbound
        omega
      have hsmall : m < 2 ^ 52 := (Nat.log2_lt hpos.ne').1 hlog
      obtain rfl : e = -1074 := by
        by_contra hne
        exact absurd (hfull (lt_of_le_of_ne hleast (Ne.symm hne))) (not_le.2 hsmall)
      have hzero : (0#11).toNat = 0 := rfl
      rw [if_neg hnormal, unpack_packComponents _ _ _ (by decide), if_pos hzero, BitVec.toNat_ofNat,
        Nat.mod_eq_of_lt hsmall]
  · rw [if_pos (by omega), if_neg hmost]
    cases sign <;> rfl

end Packing

/-! ## Doubles near a number -/

/-- A double stands for a rational. -/
def Stands (x : Float) (q : ℚ) : Prop :=
  (parts x).value? = some (Extended.ofRat q)

/-- A double is the one nearest to a number, or infinite if that would be beyond the greatest. -/
def StandsNear (x : Float) (q : ℚ) : Prop :=
  ∃ v, Rounds q v ∧
    (Stands x v ∨ (∃ negative, parts x = .infinite negative) ∧ 2 ^ (1024 : ℤ) ≤ |v|)

theorem ofRat_injective : Function.Injective Extended.ofRat :=
  WithBot.coe_injective.comp WithTop.coe_injective

theorem abs_signed (negative : Bool) (m : ℕ) (e : ℤ) : |signed negative m e| = m * 2 ^ e := by
  have hnonneg : (0 : ℚ) ≤ m * 2 ^ e := mul_nonneg (Nat.cast_nonneg m) (two_zpow_pos e).le
  cases negative
  · exact abs_of_nonneg hnonneg
  · exact (abs_neg _).trans (abs_of_nonneg hnonneg)

theorem standsNear_of_parts {x : Float} {negative : Bool} {m : ℕ} {e : ℤ} {q : ℚ}
    (hm : Canonical m e) (hround : Rounds q (signed negative m e))
    (hx : parts x = if e ≤ 971 then .finite negative m e else .infinite negative) :
    StandsNear x q := by
  refine ⟨_, hround, ?_⟩
  split at hx
  · refine .inl ?_
    rw [Stands, hx]
    rfl
  · next hbeyond =>
    refine .inr ⟨⟨negative, hx⟩, ?_⟩
    have hfull : (2 : ℚ) ^ (52 : ℤ) ≤ m := by exact_mod_cast hm.full (by omega)
    rw [abs_signed]
    calc (2 : ℚ) ^ (1024 : ℤ) ≤ 2 ^ (52 + e) := two_zpow_le (by omega)
      _ = 2 ^ (52 : ℤ) * 2 ^ e := two_zpow_add 52 e
      _ ≤ m * 2 ^ e := mul_le_mul_of_nonneg_right hfull (two_zpow_pos e).le

/-- An unpacked double is the one nearest to a number, and not yet cut at the greatest exponent. -/
def IsNear (u : UnpackedFloat) (q : ℚ) : Prop :=
  ∃ (sign : Sign) (p : ℚ) (t : ℤ) (n : ℕ), 0 ≤ p ∧ RoundsAt p t n ∧ u = carried sign n t ∧
    q = if sign == .negative then -p else p

/-- A mantissa that was carried all the way is written with one digit less. -/
theorem signed_carried (negative : Bool) (t : ℤ) :
    signed negative (2 ^ 53) t = signed negative (2 ^ 52) (t + 1) := by
  rw [signed, signed, two_zpow_add]
  push_cast
  congr 1 <;> ring

theorem RoundsAt.canonical {q : ℚ} {t : ℤ} {n : ℕ} (h : RoundsAt q t n) (hn : n ≠ 2 ^ 53) :
    Canonical n t :=
  ⟨h.least, lt_of_le_of_ne h.le_two_pow hn, h.two_pow_le⟩

theorem RoundsAt.canonical_carried {q : ℚ} {t : ℤ} {n : ℕ} (h : RoundsAt q t n) :
    Canonical (2 ^ 52) (t + 1) :=
  ⟨h.least.trans (by omega), by decide, fun _ => le_refl _⟩

theorem IsNear.standsNear {u : UnpackedFloat} {x : Float} {q : ℚ} (h : IsNear u q)
    (hx : x.toModel.unpack = UnpackedFloat.unpack .binary64 (UnpackedFloat.pack .binary64 u)) :
    StandsNear x q := by
  obtain ⟨sign, p, t, n, hp, hat, rfl, rfl⟩ := h
  have hround : Rounds (if sign == .negative then -p else p) (signed (sign == .negative) n t) :=
    ⟨_, p, t, n, hp, hat, rfl, rfl⟩
  have hparts : parts x = Parts.ofUnpacked (UnpackedFloat.unpack .binary64
      (UnpackedFloat.pack .binary64 (carried sign n t))) := (parts_eq x).trans (congrArg _ hx)
  unfold carried at hparts
  split at hparts
  · next hzero =>
    have hnothing : parts x = .finite (sign == .negative) 0 (-1074) :=
      hparts.trans (unpack_packComponents sign 0 0 (by decide))
    refine ⟨_, hround, .inl ?_⟩
    rw [Stands, hnothing, hzero, Parts.value?, signed, signed, Nat.cast_zero, zero_mul, zero_mul]
  next hne =>
  split at hparts
  · next hall =>
    rw [hall, signed_carried] at hround
    have hcanonical := hat.canonical_carried
    exact standsNear_of_parts hcanonical hround
      (hparts.trans (parts_pack_finite hcanonical (by decide) sign))
  · next hless =>
    have hcanonical := hat.canonical hless
    exact standsNear_of_parts hcanonical hround
      (hparts.trans (parts_pack_finite hcanonical (Nat.pos_of_ne_zero hne) sign))

end Latency.Decimal
