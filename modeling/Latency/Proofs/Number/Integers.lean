import Latency.Proofs.Number.Operations
/-!
# Integers as doubles

An integer becomes the double nearest to it (`standsNear_ofInt`), which is the integer itself if a
double was rounded down to it (`Number.floor_ok`).
-/

namespace Latency

namespace Decimal

open Float.Model.UnpackedFloat (ExtendedMantissa accuracyOfFraction)

/-! ## Rounded quotients -/

theorem roundQuotient_eq (num : ℕ) {den : ℕ} (hpos : 0 < den) : roundQuotient num den =
    (ExtendedMantissa.ofMantissaAndAccuracy (num / den)
      (accuracyOfFraction (num % den) den)).roundedMantissa := by
  unfold roundQuotient accuracyOfFraction
  simp only
  generalize num / den = quotient
  generalize num % den = rest
  by_cases hzero : rest = 0
  · rw [if_neg (by omega), if_neg (by omega), if_pos hzero]
    rfl
  rw [if_neg hzero]
  obtain hlt | heq | hgt := lt_trichotomy (2 * rest) den
  · rw [if_neg (by omega), if_neg (by omega), compare_lt_iff_lt.2 hlt]
    rfl
  · rw [if_neg (by omega), compare_eq_iff_eq.2 heq]
    change _ = quotient + quotient % 2
    split <;> omega
  · rw [if_pos hgt, compare_gt_iff_gt.2 hgt]
    rfl

theorem nearestEven_roundQuotient (num : ℕ) {den : ℕ} (hpos : 0 < den) :
    NearestEven (num / den : ℚ) (roundQuotient num den) := by
  rw [roundQuotient_eq num hpos]
  exact (shows_accuracyOfFraction num hpos).nearestEven

theorem binaryExponent_one {n : ℕ} (hne : n ≠ 0) : binaryExponent n 1 = n.log2 := by
  have hreached : decide (1 * Nat.pow 2 n.log2 ≤ n) = true := by
    rw [Nat.one_mul]
    exact decide_eq_true (Nat.log2_self_le hne)
  have hone : Nat.log2 1 = 0 := by decide
  unfold binaryExponent
  simp only [hone, Int.ofNat_zero, Int.sub_zero]
  exact if_pos hreached

theorem nearestEven_mantissa (n : ℕ) (t : ℤ) : NearestEven (n / 2 ^ t)
    (match t with
      | .ofNat e => roundQuotient n (1 * Nat.pow 2 e)
      | .negSucc e => roundQuotient (n * Nat.pow 2 (e + 1)) 1) := by
  cases t with
  | ofNat e =>
    have hcast : ((1 * Nat.pow 2 e : ℕ) : ℚ) = 2 ^ Int.ofNat e := by
      rw [Nat.one_mul]
      exact Nat.cast_pow 2 e
    rw [← hcast]
    exact nearestEven_roundQuotient n (Nat.mul_pos one_pos (Nat.two_pow_pos e))
  | negSucc e =>
    have hcast : ((n * Nat.pow 2 (e + 1) : ℕ) : ℚ) / (1 : ℕ) = n / 2 ^ Int.negSucc e := by
      rw [zpow_negSucc, div_inv_eq_mul, Nat.cast_one, div_one, Nat.cast_mul]
      exact congrArg _ (Nat.cast_pow 2 (e + 1))
    rw [← hcast]
    exact nearestEven_roundQuotient _ one_pos

theorem nearestBits_one {n : ℕ} (hne : n ≠ 0) : ∃ k, RoundsAt n ((n.log2 : ℤ) - 52) k ∧
    nearestBits n 1 =
      min ((n.log2 + 1023) * Nat.pow 2 52 + (k - Nat.pow 2 52)) (2047 * Nat.pow 2 52) := by
  have hmax : max ((n.log2 : ℤ) - 52) (-1074) = n.log2 - 52 := by omega
  have hround {k : ℕ} (hk : NearestEven (n / 2 ^ ((n.log2 : ℤ) - 52)) k) :
      RoundsAt n ((n.log2 : ℤ) - 52) k := by
    refine ⟨by omega, ?_, fun _ => ?_, hk⟩
    · have hlog : (53 : ℤ) + (n.log2 - 52) = (n.log2 + 1 : ℕ) := by omega
      rw [hlog, zpow_natCast]
      exact_mod_cast Nat.lt_log2_self
    · have hlog : (52 : ℤ) + (n.log2 - 52) = n.log2 := by omega
      rw [hlog, zpow_natCast]
      exact_mod_cast Nat.log2_self_le hne
  obtain ⟨k, hk, hbits⟩ : ∃ k, RoundsAt n ((n.log2 : ℤ) - 52) k ∧ nearestBits n 1 =
      min (if k < Nat.pow 2 52 then k
        else ((n.log2 : ℤ) - 52 + 1075).toNat * Nat.pow 2 52 + (k - Nat.pow 2 52))
        (2047 * Nat.pow 2 52) := by
    unfold nearestBits
    rw [if_neg hne]
    simp only [binaryExponent_one hne, hmax]
    generalize (n.log2 : ℤ) - 52 = t at hround
    cases t with
    | ofNat e => exact ⟨_, hround (nearestEven_mantissa n (.ofNat e)), rfl⟩
    | negSucc e => exact ⟨_, hround (nearestEven_mantissa n (.negSucc e)), rfl⟩
  have hfull : Nat.pow 2 52 ≤ k := hk.two_pow_le (by omega)
  have hbiased : ((n.log2 : ℤ) - 52 + 1075).toNat = n.log2 + 1023 := by omega
  refine ⟨k, hk, ?_⟩
  rw [hbits, if_neg (not_lt.2 hfull), hbiased]

theorem Parts.ofBits_min {biased fraction : ℕ} (hbiased : 0 < biased)
    (hfraction : fraction < Nat.pow 2 52) (negative : Bool) :
    Parts.ofBits (min (biased * Nat.pow 2 52 + fraction) (2047 * Nat.pow 2 52) +
        if negative then Nat.pow 2 63 else 0) =
      if (biased : ℤ) - 1075 ≤ 971 then
        .finite negative (fraction + Nat.pow 2 52) (biased - 1075)
      else .infinite negative := by
  have h52 : Nat.pow 2 52 = 4503599627370496 := rfl
  have h63 : Nat.pow 2 63 = 9223372036854775808 := rfl
  have h11 : Nat.pow 2 11 = 2048 := rfl
  simp only [Parts.ofBits, h52, h63, h11] at hfraction ⊢
  by_cases hmost : (biased : ℤ) - 1075 ≤ 971
  · rw [if_pos hmost, min_eq_left (by omega)]
    cases negative
    · simp only [Bool.false_eq_true, if_false]
      rw [if_neg (by omega), if_neg (by omega), Parts.finite.injEq, decide_eq_false_iff_not]
      omega
    · simp only [if_true]
      rw [if_neg (by omega), if_neg (by omega), Parts.finite.injEq, decide_eq_true_iff]
      omega
  · rw [if_neg hmost, min_eq_right (by omega)]
    cases negative <;> decide

theorem standsNear_nearest (negative : Bool) (n : ℕ) :
    StandsNear (nearest negative n 1) (if negative then -n else n) := by
  have hparts : parts (nearest negative n 1) =
      Parts.ofBits (nearestBits n 1 + if negative then Nat.pow 2 63 else 0) := by
    rw [nearest, parts_ofBits, toNat_word (nearestBits_le n 1)]
  obtain rfl | hne := eq_or_ne n 0
  · have hnothing : parts (nearest negative 0 1) = .finite negative 0 (-1074) := by
      rw [hparts]
      cases negative <;> decide
    refine ⟨0, ?_, .inl ?_⟩
    · exact ⟨negative, 0, -1074, 0, le_refl _, roundsAt_zero, by simp, by simp [signed]⟩
    · rw [Stands, hnothing, Parts.value?, signed]
      simp
  obtain ⟨k, hk, hbits⟩ := nearestBits_one hne
  have hround : Rounds (if negative then -n else n) (signed negative k (n.log2 - 52)) :=
    ⟨negative, n, _, k, Nat.cast_nonneg n, hk, rfl, rfl⟩
  have hfull : Nat.pow 2 52 ≤ k := hk.two_pow_le (by omega)
  have hmost : k ≤ 2 ^ 53 := hk.le_two_pow
  have h52 : Nat.pow 2 52 = 4503599627370496 := rfl
  rw [hbits] at hparts
  by_cases hall : k = 2 ^ 53
  · have hcarry : (n.log2 + 1023) * Nat.pow 2 52 + (k - Nat.pow 2 52) =
        (n.log2 + 1024) * Nat.pow 2 52 + 0 := by
      rw [hall, h52]
      omega
    rw [hcarry, Parts.ofBits_min (by omega) (by decide), Nat.zero_add] at hparts
    rw [hall, signed_carried] at hround
    refine standsNear_of_parts hk.canonical_carried hround (hparts.trans ?_)
    have hexponent : ((n.log2 + 1024 : ℕ) : ℤ) - 1075 = n.log2 - 52 + 1 := by omega
    rw [hexponent]
    rfl
  · rw [Parts.ofBits_min (by omega) (by omega), Nat.sub_add_cancel hfull] at hparts
    refine standsNear_of_parts (hk.canonical hall) hround (hparts.trans ?_)
    have hexponent : ((n.log2 + 1023 : ℕ) : ℤ) - 1075 = n.log2 - 52 := by omega
    rw [hexponent]

theorem sign_natAbs (n : ℤ) :
    (if decide (n < 0) then -(n.natAbs : ℚ) else n.natAbs) = n := by
  rw [Nat.cast_natAbs, Int.cast_abs]
  by_cases hneg : n < 0
  · rw [decide_eq_true hneg, if_pos rfl, abs_of_neg (Int.cast_lt_zero.2 hneg), neg_neg]
  · rw [decide_eq_false hneg, if_neg Bool.false_ne_true,
      abs_of_nonneg (Int.cast_nonneg (not_lt.1 hneg))]

theorem standsNear_ofInt (n : ℤ) : StandsNear (ofInt n) n := by
  have hnear := standsNear_nearest (decide (n < 0)) n.natAbs
  rwa [sign_natAbs] at hnear

/-! ## Doubles that stand for themselves -/

theorem rounds_signed {m : ℕ} {e : ℤ} (hm : Canonical m e) (negative : Bool) :
    Rounds (signed negative m e) (signed negative m e) :=
  ⟨negative, m * 2 ^ e, e, m, mul_nonneg (Nat.cast_nonneg m) (two_zpow_pos e).le, hm.roundsAt, rfl,
    rfl⟩

theorem Rounds.unique {q v w : ℚ} (hv : Rounds q v) (hw : Rounds q w) : v = w :=
  le_antisymm (hv.mono hw (le_refl q)) (hw.mono hv (le_refl q))

theorem exponent_le_of_parts {x : Float} {negative : Bool} {m : ℕ} {e : ℤ}
    (h : parts x = .finite negative m e) : e ≤ 971 := by
  have h11 : Nat.pow 2 11 = 2048 := rfl
  unfold parts Parts.ofBits at h
  simp only [h11] at h
  split at h
  · split at h <;> cases h
  · split at h
    · obtain ⟨-, -, rfl⟩ := Parts.finite.inj h
      decide
    · obtain ⟨-, -, rfl⟩ := Parts.finite.inj h
      omega

theorem Stands.exists_parts {x : Float} {q : ℚ} (h : Stands x q) :
    ∃ negative m e, parts x = .finite negative m e ∧ Canonical m e ∧ e ≤ 971 ∧
      q = signed negative m e := by
  unfold Stands at h
  cases hx : parts x with
  | nan => rw [hx] at h; cases h
  | infinite negative => rw [hx] at h; cases negative <;> cases h
  | finite negative m e =>
    rw [hx] at h
    exact ⟨negative, m, e, rfl, canonical_of_parts hx, exponent_le_of_parts hx,
      (ofRat_injective (Option.some.inj h)).symm⟩

theorem Stands.rounds {x : Float} {q : ℚ} (h : Stands x q) : Rounds q q := by
  obtain ⟨negative, m, e, -, hm, -, rfl⟩ := h.exists_parts
  exact rounds_signed hm negative

theorem Stands.abs_lt {x : Float} {q : ℚ} (h : Stands x q) : |q| < 2 ^ (1024 : ℤ) := by
  obtain ⟨negative, m, e, -, hm, he, rfl⟩ := h.exists_parts
  have hbound : (m : ℚ) < 2 ^ (53 : ℤ) := by exact_mod_cast hm.bound
  rw [abs_signed]
  calc (m * 2 ^ e : ℚ) < 2 ^ (53 : ℤ) * 2 ^ e := mul_lt_mul_of_pos_right hbound (two_zpow_pos e)
    _ = 2 ^ (53 + e) := (two_zpow_add 53 e).symm
    _ ≤ 2 ^ (1024 : ℤ) := two_zpow_le (by omega)

/-- No double is nearer than the one that a number is rounded to. -/
theorem Rounds.closest {q v w : ℚ} (h : Rounds q v) {x : Float} (hx : Stands x w) :
    |v - q| ≤ |w - q| := by
  obtain ⟨negative, p, t, n, -, hat, rfl, rfl⟩ := h
  obtain ⟨negative', m, e, -, hm, -, rfl⟩ := hx.exists_parts
  cases negative
  · exact hat.closest hm negative'
  · have hcloser := hat.closest hm !negative'
    have hflip : signed (!negative') m e = -signed negative' m e := by
      cases negative' <;> simp [signed]
    have hleft : signed true n t - -p = -(n * 2 ^ t - p) := by
      simp only [signed, if_true]
      ring
    have hright : signed negative' m e - -p = -(-signed negative' m e - p) := by ring
    rw [hflip] at hcloser
    simpa only [if_true, hleft, hright, abs_neg] using hcloser

theorem StandsNear.rounds {x : Float} {q v : ℚ} (h : StandsNear x q) (hx : Stands x v) :
    Rounds q v := by
  obtain ⟨w, hround, hw | ⟨⟨negative, hinfinite⟩, -⟩⟩ := h
  · obtain rfl := ofRat_injective (Option.some.inj (hx.symm.trans hw))
    exact hround
  · unfold Stands at hx
    rw [hinfinite] at hx
    cases negative <;> cases hx

/-- A number that is written as a double becomes that double. -/
theorem StandsNear.stands {x : Float} {q : ℚ} (h : StandsNear x q) (hq : Rounds q q)
    (hsmall : |q| < 2 ^ (1024 : ℤ)) : Stands x q := by
  obtain ⟨v, hround, hv | ⟨-, hbeyond⟩⟩ := h
  · rwa [hround.unique hq] at hv
  · rw [hround.unique hq] at hbeyond
    exact absurd hsmall (not_lt.2 hbeyond)

theorem StandsNear.exists_stands {x : Float} {q : ℚ} (h : StandsNear x q)
    (hsmall : |q| < 2 ^ (1023 : ℤ)) : ∃ v, Rounds q v ∧ Stands x v := by
  obtain ⟨v, hround, hv | ⟨-, hbeyond⟩⟩ := h
  · exact ⟨v, hround, hv⟩
  · have hdouble : (2 : ℚ) ^ (1024 : ℤ) = 2 * 2 ^ (1023 : ℤ) := by
      rw [← zpow_one_add₀ two_ne_zero]
      norm_num
    have hlarge : (1 : ℚ) ≤ 2 ^ (1023 : ℤ) := one_le_zpow₀ one_le_two (by decide)
    have hless : |v| < 2 * 2 ^ (1023 : ℤ) := by
      generalize (2 : ℚ) ^ (1023 : ℤ) = top at hsmall hlarge
      have htriangle : |v| ≤ |q| + |v - q| := by linarith [abs_sub_abs_le_abs_sub v q]
      have hnear : |v - q| ≤ (|q| + 1) / 2 := by
        refine hround.near.trans ?_
        gcongr
        norm_num
      linarith only [htriangle, hnear, hsmall, hlarge]
    rw [hdouble] at hbeyond
    exact absurd hless (not_lt.2 hbeyond)

theorem rounds_intCast {n : ℤ} (hn : n.natAbs ≤ 2 ^ 52) : Rounds n n := by
  obtain hzero | hne := eq_or_ne n.natAbs 0
  · rw [Int.natAbs_eq_zero.1 hzero]
    exact ⟨false, 0, -1074, 0, le_refl _, roundsAt_zero, by simp, by simp [signed]⟩
  have hlog : n.natAbs.log2 ≤ 52 := by
    have hlt : n.natAbs.log2 < 53 := (Nat.log2_lt hne).2 (by omega)
    omega
  obtain ⟨k, hk⟩ : ∃ k, n.natAbs.log2 + k = 52 := ⟨52 - n.natAbs.log2, by omega⟩
  have hdigits : (n.natAbs * 2 ^ k).log2 = 52 := (log2_mul_two_pow hne k).trans hk
  obtain ⟨hlow, hhigh⟩ :=
    (Nat.log2_eq_iff (Nat.mul_ne_zero hne (Nat.two_pow_pos k).ne')).1 hdigits
  have hcanonical : Canonical (n.natAbs * 2 ^ k) (-k) := ⟨by omega, hhigh, fun _ => hlow⟩
  have hscaled : ((n.natAbs * 2 ^ k : ℕ) : ℚ) * 2 ^ (-(k : ℤ)) = n.natAbs := by
    rw [zpow_neg, zpow_natCast, Nat.cast_mul, Nat.cast_pow]
    exact mul_inv_cancel_right₀ (pow_ne_zero k two_ne_zero) _
  have hround := rounds_signed hcanonical (decide (n < 0))
  rwa [signed, hscaled, sign_natAbs] at hround

/-- An integer of 52 digits is a double. -/
theorem stands_ofInt {n : ℤ} (hn : n.natAbs ≤ 2 ^ 52) : Stands (ofInt n) n := by
  refine (standsNear_ofInt n).stands (rounds_intCast hn) ?_
  have hsize : |(n : ℚ)| ≤ 2 ^ (52 : ℤ) := by
    rw [← Int.cast_abs, Int.abs_eq_natAbs]
    exact_mod_cast hn
  exact hsize.trans_lt (zpow_lt_zpow_right₀ one_lt_two (by decide))

end Decimal

namespace Number

open Decimal

theorem floor_of_stands {x : Float} {q : ℚ} (h : Stands x q) : floor x = .ok ⌊q⌋ := by
  obtain ⟨negative, m, e, hx, -, -, rfl⟩ := h.exists_parts
  obtain ⟨hnum, hden⟩ := ratio_eq m e
  have hvalue : signed negative m e =
      ((if negative then -((ratio m e).1 : ℤ) else (ratio m e).1 : ℤ) : ℚ) / (ratio m e).2 := by
    rw [eq_div_iff hden.ne', signed]
    cases negative <;> simp [hnum]
  unfold floor
  simp only [hx]
  rw [hvalue, Rat.floor_intCast_div_natCast, Int.fdiv_eq_ediv_of_nonneg _ (Int.natCast_nonneg _)]

theorem floor_ok {x : Float} {n : ℤ} (h : floor x = .ok n) : ∃ q, Stands x q ∧ n = ⌊q⌋ := by
  have hstands : ∃ q, Stands x q := by
    unfold floor at h
    cases hx : parts x with
    | nan => rw [hx] at h; cases h
    | infinite negative => rw [hx] at h; cases h
    | finite negative m e => exact ⟨_, congrArg Parts.value? hx⟩
  obtain ⟨q, hq⟩ := hstands
  exact ⟨q, hq, (Except.ok.inj ((floor_of_stands hq).symm.trans h)).symm⟩

end Number

end Latency
