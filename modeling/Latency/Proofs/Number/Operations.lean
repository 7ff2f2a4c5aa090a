import Latency.Proofs.Number.Range
import Latency.Proofs.Number.Rounding
/-!
# Operations on doubles

A product, a sum or a quotient of doubles is the double nearest to that of the rationals they stand
for, or infinite (`standsNear_mul`, `standsNear_add`, `standsNear_div`).
-/

namespace Latency.Decimal

open Float.Model
open Float.Model.UnpackedFloat (Accuracy ExtendedMantissa Sign decreaseExponent roundWithAccuracy
  accuracyOfFraction)

/-! ## Unpacked doubles -/

/-- An unpacked double stands for a rational, in the way that doubles are written. -/
inductive Unpacks : UnpackedFloat → ℚ → Prop
  | zero (s : Sign) : Unpacks (.zero s) 0
  | finite (s : Sign) {m : ℕ} {e : ℤ} (hpos : 0 < m) (hm : Canonical m e) :
      Unpacks (.finite s m e hpos) (signed (s == .negative) m e)

theorem Stands.unpacks {x : Float} {q : ℚ} (h : Stands x q) : Unpacks x.toModel.unpack q := by
  have hvalue : unpackedValue? x.toModel.unpack = some (Extended.ofRat q) := by
    rw [← value?_ofUnpacked, ← parts_eq]
    exact h
  have hcanonical := canonical_unpack x
  generalize x.toModel.unpack = u at hvalue hcanonical
  cases u with
  | notANumber => cases hvalue
  | infinity s => cases s <;> cases hvalue
  | zero s =>
    obtain rfl := ofRat_injective (Option.some.inj hvalue)
    exact .zero s
  | finite s m e hpos =>
    have hsame : signed (s == .negative) m e = q := by
      cases s <;> exact ofRat_injective (Option.some.inj hvalue)
    rw [← hsame]
    exact .finite s hpos (hcanonical s m e hpos rfl)

theorem roundsAt_zero : RoundsAt 0 (-1074) 0 where
  least := le_refl _
  below := two_zpow_pos _
  full h := absurd h (lt_irrefl _)
  nearest := by
    rw [zero_div]
    exact NearestEven.natCast 0

theorem Canonical.roundsAt {m : ℕ} {e : ℤ} (hm : Canonical m e) : RoundsAt (m * 2 ^ e) e m where
  least := hm.least
  below := by
    have hbound : (m : ℚ) < 2 ^ (53 : ℤ) := by exact_mod_cast hm.bound
    rw [two_zpow_add]
    exact mul_lt_mul_of_pos_right hbound (two_zpow_pos e)
  full h := by
    have hfull : (2 : ℚ) ^ (52 : ℤ) ≤ m := by exact_mod_cast hm.full h
    rw [two_zpow_add]
    exact mul_le_mul_of_nonneg_right hfull (two_zpow_pos e).le
  nearest := by
    rw [mul_div_cancel_right₀ _ (two_zpow_pos e).ne']
    exact NearestEven.natCast m

theorem isNear_zero (s : Sign) : IsNear (.zero s) 0 :=
  ⟨s, 0, -1074, 0, le_refl _, roundsAt_zero, rfl, by simp⟩

theorem Unpacks.isNear {u : UnpackedFloat} {q : ℚ} (h : Unpacks u q) : IsNear u q := by
  cases h with
  | zero s => exact isNear_zero s
  | finite s hpos hm =>
    refine ⟨s, _, _, _, ?_, hm.roundsAt, ?_, rfl⟩
    · exact mul_nonneg (Nat.cast_nonneg _) (two_zpow_pos _).le
    · rw [carried, dif_neg hpos.ne', if_neg hm.bound.ne]

/-! ## Products -/

theorem Canonical.enough_digits {m n : ℕ} {e f : ℤ} (hm : Canonical m e) (hn : Canonical n f)
    (hpos : 0 < m) (hpos' : 0 < n) : 52 ≤ (m * n).log2 ∨ e + f ≤ -1074 := by
  have hne : m * n ≠ 0 := (Nat.mul_pos hpos hpos').ne'
  by_cases he : -1074 < e
  · refine .inl ((Nat.le_log2 hne).2 ((hm.full he).trans ?_))
    exact Nat.le_mul_of_pos_right m hpos'
  by_cases hf : -1074 < f
  · refine .inl ((Nat.le_log2 hne).2 ((hn.full hf).trans ?_))
    exact Nat.le_mul_of_pos_left n hpos
  · exact .inr (by omega)

theorem Unpacks.isNear_mul {u v : UnpackedFloat} {p q : ℚ} (hu : Unpacks u p) (hv : Unpacks v q) :
    IsNear (UnpackedFloat.mul .binary64 u v) (p * q) := by
  cases hu with
  | zero s =>
    rw [zero_mul]
    cases hv <;> exact isNear_zero (s * _)
  | @finite s m e hpos hm =>
    cases hv with
    | zero s' =>
      rw [mul_zero]
      exact isNear_zero (s * s')
    | @finite s' n f hpos' hn =>
      have hshows : Shows (ExtendedMantissa.ofMantissaAndAccuracy (m * n) .exact) (m * n : ℕ) := rfl
      obtain ⟨t, k, hround, hcarried⟩ :=
        roundWithAccuracy_eq hshows (hm.enough_digits hn hpos hpos') (s * s')
      refine ⟨s * s', _, t, k, ?_, hround, hcarried, ?_⟩
      · exact mul_nonneg (Nat.cast_nonneg _) (two_zpow_pos _).le
      · have hproduct : ((m * n : ℕ) : ℚ) * 2 ^ (e + f) = m * 2 ^ e * (n * 2 ^ f) := by
          rw [two_zpow_add]
          push_cast
          ring
        rw [hproduct]
        cases s <;> cases s'
        · exact neg_mul_neg _ _
        · exact neg_mul _ _
        · exact mul_neg _ _
        · rfl

theorem standsNear_mul {x y : Float} {p q : ℚ} (hx : Stands x p) (hy : Stands y q) :
    StandsNear (x * y) (p * q) :=
  (hx.unpacks.isNear_mul hy.unpacks).standsNear rfl

/-! ## Sums -/

theorem decreaseExponent_eq {m : ℕ} {e t : ℤ} (h : t ≤ e) :
    ((decreaseExponent m e t).1 : ℚ) * 2 ^ t = m * 2 ^ e := by
  have hshift : e = (e - t).toNat + t := by omega
  change ((m <<< (e - t).toNat : ℕ) : ℚ) * 2 ^ t = _
  rw [Nat.shiftLeft_eq]
  conv_rhs => rw [hshift, two_zpow_add, zpow_natCast]
  push_cast
  ring

/-- What is rounded gets more digits where it has too few. -/
theorem round_eq {m : ℕ} (hpos : 0 < m) (e : ℤ) (sign : Sign) : ∃ t n,
    RoundsAt (m * 2 ^ e) t n ∧ UnpackedFloat.round .binary64 sign m e = carried sign n t := by
  unfold UnpackedFloat.round
  rw [targetExponent_eq]
  simp only [decreaseExponent]
  generalize hcount : (e - max (m.log2 + e - 52) (-1074)).toNat = count
  have hlog : (m <<< count).log2 = m.log2 + count := by
    rw [Nat.shiftLeft_eq]
    exact log2_mul_two_pow hpos.ne' count
  have hshows : Shows (ExtendedMantissa.ofMantissaAndAccuracy (m <<< count) .exact)
      (m <<< count : ℕ) := rfl
  have hdigits : 52 ≤ (m <<< count).log2 ∨ e - (count : ℤ) ≤ -1074 := by omega
  obtain ⟨t, n, hround, hcarried⟩ := roundWithAccuracy_eq hshows hdigits sign
  refine ⟨t, n, ?_, hcarried⟩
  have hvalue : ((m <<< count : ℕ) : ℚ) * 2 ^ (e - (count : ℤ)) = m * 2 ^ e := by
    rw [Nat.shiftLeft_eq, sub_eq_add_neg, two_zpow_add, zpow_neg, zpow_natCast]
    push_cast
    field_simp
  rwa [hvalue] at hround

theorem isNear_normalize (m e : ℤ) (s : Sign) :
    IsNear (UnpackedFloat.normalize .binary64 m e s) (m * 2 ^ e) := by
  unfold UnpackedFloat.normalize
  obtain hneg | rfl | hpos := lt_trichotomy m 0
  · rw [compare_lt_iff_lt.2 hneg]
    obtain ⟨t, n, hround, hcarried⟩ := round_eq (m := (-m).toNat) (by omega) e .negative
    refine ⟨.negative, _, t, n, ?_, hround, hcarried, ?_⟩
    · exact mul_nonneg (Nat.cast_nonneg _) (two_zpow_pos e).le
    · have hcast : (((-m).toNat : ℕ) : ℚ) = -m := by
        have hnat : (((-m).toNat : ℕ) : ℤ) = -m := Int.toNat_of_nonneg (by omega)
        exact_mod_cast congrArg (Int.cast : ℤ → ℚ) hnat
      rw [hcast]
      simp
  · rw [compare_eq_iff_eq.2 rfl, Int.cast_zero, zero_mul]
    exact isNear_zero s
  · rw [compare_gt_iff_gt.2 hpos]
    obtain ⟨t, n, hround, hcarried⟩ := round_eq (m := m.toNat) (by omega) e .positive
    refine ⟨.positive, _, t, n, ?_, hround, hcarried, ?_⟩
    · exact mul_nonneg (Nat.cast_nonneg _) (two_zpow_pos e).le
    · have hcast : ((m.toNat : ℕ) : ℚ) = m := by
        have hnat : ((m.toNat : ℕ) : ℤ) = m := Int.toNat_of_nonneg hpos.le
        exact_mod_cast congrArg (Int.cast : ℤ → ℚ) hnat
      rw [hcast]
      rfl

theorem apply_decreaseExponent (s : Sign) {m : ℕ} {e t : ℤ} (h : t ≤ e) :
    ((s.apply (decreaseExponent m e t).1 : ℤ) : ℚ) * 2 ^ t = signed (s == .negative) m e := by
  have hvalue := decreaseExponent_eq (m := m) h
  cases s
  · change ((-((decreaseExponent m e t).1 : ℤ) : ℤ) : ℚ) * 2 ^ t = -(m * 2 ^ e)
    rw [← hvalue]
    push_cast
    ring
  · exact_mod_cast hvalue

theorem Unpacks.isNear_add {u v : UnpackedFloat} {p q : ℚ} (hu : Unpacks u p) (hv : Unpacks v q) :
    IsNear (UnpackedFloat.add .binary64 u v) (p + q) := by
  cases hu with
  | zero s =>
    rw [zero_add]
    cases hv with
    | zero s' =>
      cases s <;> cases s' <;> exact isNear_zero _
    | finite s' hpos hm => exact (Unpacks.finite s' hpos hm).isNear
  | @finite s m e hpos hm =>
    cases hv with
    | zero s' =>
      rw [add_zero]
      exact (Unpacks.finite s hpos hm).isNear
    | @finite s' n f hpos' hn =>
      have hsum := isNear_normalize (s.apply (decreaseExponent m e (min e f)).1 +
        s'.apply (decreaseExponent n f (min e f)).1) (min e f) .positive
      rw [Int.cast_add, add_mul, apply_decreaseExponent s (min_le_left e f),
        apply_decreaseExponent s' (min_le_right e f)] at hsum
      exact hsum

theorem standsNear_add {x y : Float} {p q : ℚ} (hx : Stands x p) (hy : Stands y q) :
    StandsNear (x + y) (p + q) :=
  (hx.unpacks.isNear_add hy.unpacks).standsNear rfl

/-! ## Quotients -/

/-- A quotient stands where its remainder stands below the divisor. -/
theorem shows_accuracyOfFraction (m : ℕ) {n : ℕ} (hpos : 0 < n) :
    Shows (ExtendedMantissa.ofMantissaAndAccuracy (m / n) (accuracyOfFraction (m % n) n))
      (m / n : ℚ) := by
  have hn : (0 : ℚ) < n := Nat.cast_pos.2 hpos
  have hsplit : (m / n : ℚ) = (m / n : ℕ) + (m % n : ℕ) / n := by
    have hdivision : (m : ℚ) = n * (m / n : ℕ) + (m % n : ℕ) := by
      exact_mod_cast (Nat.div_add_mod m n).symm
    conv_lhs => rw [hdivision, add_div, mul_div_cancel_left₀ _ hn.ne']
  have hless : ((m % n : ℕ) / n : ℚ) < 1 := by
    rw [div_lt_one hn]
    exact_mod_cast Nat.mod_lt m hpos
  rw [hsplit]
  generalize m / n = quotient
  generalize m % n = rest at hless
  unfold accuracyOfFraction
  split
  · next hzero =>
    change (quotient + rest / n : ℚ) = quotient
    rw [hzero, Nat.cast_zero, zero_div, add_zero]
  · next hsome =>
    have hrest : (0 : ℚ) < rest / n := div_pos (Nat.cast_pos.2 (Nat.pos_of_ne_zero hsome)) hn
    obtain hlt | heq | hgt := lt_trichotomy (2 * rest) n
    · have hhalf : (rest / n : ℚ) < 1 / 2 := by
        rw [div_lt_div_iff₀ hn two_pos, one_mul, mul_comm]
        exact_mod_cast hlt
      rw [compare_lt_iff_lt.2 hlt]
      exact ⟨lt_add_of_pos_right _ hrest, add_lt_add_right hhalf _⟩
    · have hhalf : (rest / n : ℚ) = 1 / 2 := by
        rw [div_eq_div_iff hn.ne' two_ne_zero, one_mul, mul_comm]
        exact_mod_cast heq
      rw [compare_eq_iff_eq.2 heq, hhalf]
      rfl
    · have hhalf : (1 / 2 : ℚ) < rest / n := by
        rw [div_lt_div_iff₀ two_pos hn, one_mul, mul_comm]
        exact_mod_cast hgt
      rw [compare_gt_iff_gt.2 hgt]
      exact ⟨add_lt_add_right hhalf _, add_lt_add_right hless _⟩

theorem log2_le_log2_div {m n k : ℕ} (hm : 0 < m) (hn : 0 < n) (h : n.log2 + 1 + k ≤ m.log2) :
    k ≤ (m / n).log2 := by
  have hdivisor : n * 2 ^ k ≤ m :=
    calc n * 2 ^ k ≤ 2 ^ (n.log2 + 1) * 2 ^ k := Nat.mul_le_mul_right _ Nat.lt_log2_self.le
      _ = 2 ^ (n.log2 + 1 + k) := (Nat.pow_add 2 _ k).symm
      _ ≤ 2 ^ m.log2 := Nat.pow_le_pow_right two_pos h
      _ ≤ m := Nat.log2_self_le hm.ne'
  have hquotient : 2 ^ k ≤ m / n := (Nat.le_div_iff_mul_le hn).2 (by rwa [Nat.mul_comm])
  exact (Nat.le_log2 (Nat.ne_of_gt ((Nat.two_pow_pos k).trans_le hquotient))).2 hquotient

/-- A quotient has enough digits, since its dividend is given more of them first. -/
theorem divCore_eq {m n : ℕ} (hpos : 0 < m) (hpos' : 0 < n) (e f : ℤ) :
    ∃ (k : ℕ) (g : ℤ) (accuracy : Accuracy) (x : ℚ),
      UnpackedFloat.divCore .binary64 m e n f = (k, g, accuracy) ∧
      Shows (ExtendedMantissa.ofMantissaAndAccuracy k accuracy) x ∧
      x * 2 ^ g = m * 2 ^ e / (n * 2 ^ f) ∧ (52 ≤ k.log2 ∨ g ≤ -1074) := by
  have htarget : Format.binary64.targetExponent (totalExponent m e - totalExponent n f) =
      max (m.log2 + e - (n.log2 + f) - 53) (-1074) := by
    have hleast : Format.binary64.minExponent = -1074 := rfl
    have hdigits : (Format.binary64.mantissaBits : ℤ) = 53 := rfl
    rw [Format.targetExponent, totalExponent, totalExponent, hleast, hdigits]
    congr 1
    omega
  unfold UnpackedFloat.divCore
  simp only [htarget]
  generalize hexponent : min (e - f) (max (m.log2 + e - (n.log2 + f) - 53) (-1074)) = g
  generalize hcount : (e - f - g).toNat = count
  have hshift : (m <<< count).log2 = m.log2 + count := by
    rw [Nat.shiftLeft_eq]
    exact log2_mul_two_pow hpos.ne' count
  refine ⟨_, _, _, _, rfl, shows_accuracyOfFraction _ hpos', ?_, ?_⟩
  · have hsum : e = (count : ℤ) + g + f := by omega
    have hn : (n : ℚ) ≠ 0 := Nat.cast_ne_zero.2 hpos'.ne'
    have hf := (two_zpow_pos f).ne'
    rw [hsum, two_zpow_add, two_zpow_add, zpow_natCast, Nat.shiftLeft_eq]
    push_cast
    field_simp
  · by_cases hleast : g ≤ -1074
    · exact .inr hleast
    · have hmore : 0 < m <<< count := by
        rw [Nat.shiftLeft_eq]
        exact Nat.mul_pos hpos (Nat.two_pow_pos count)
      exact .inl (log2_le_log2_div hmore hpos' (by omega))

theorem Unpacks.isNear_div {u v : UnpackedFloat} {p q : ℚ} (hu : Unpacks u p) (hv : Unpacks v q)
    (hq : q ≠ 0) : IsNear (UnpackedFloat.div .binary64 u v) (p / q) := by
  cases hv with
  | zero s => exact absurd rfl hq
  | @finite s' n f hpos' hn =>
    cases hu with
    | zero s =>
      rw [zero_div]
      exact isNear_zero (s / s')
    | @finite s m e hpos hm =>
      obtain ⟨k, g, accuracy, x, hcore, hshows, hvalue, hdigits⟩ := divCore_eq hpos hpos' e f
      obtain ⟨t, i, hround, hcarried⟩ := roundWithAccuracy_eq hshows hdigits (s / s')
      rw [hvalue] at hround
      refine ⟨s / s', _, t, i, ?_, hround, ?_, ?_⟩
      · exact div_nonneg (mul_nonneg (Nat.cast_nonneg _) (two_zpow_pos _).le)
          (mul_nonneg (Nat.cast_nonneg _) (two_zpow_pos _).le)
      · rw [UnpackedFloat.div, hcore]
        exact hcarried
      · cases s <;> cases s'
        · exact neg_div_neg_eq _ _
        · exact neg_div _ _
        · exact div_neg _
        · rfl

theorem standsNear_div {x y : Float} {p q : ℚ} (hx : Stands x p) (hy : Stands y q) (hq : q ≠ 0) :
    StandsNear (x / y) (p / q) :=
  (hx.unpacks.isNear_div hy.unpacks hq).standsNear rfl

end Latency.Decimal
