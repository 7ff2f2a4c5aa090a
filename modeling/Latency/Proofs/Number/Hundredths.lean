import Latency.Proofs.Number.Integers
import Latency.Proofs.Results
/-!
# Rounding to hundredths

A time is reported as the double nearest to a whole number of hundredths.  With doubles on the way
this is not quite the nearest number of hundredths: what they are off is told in `Hundredth.near`.
It keeps the order of times, since every step of it does.
-/

namespace Latency

namespace Decimal

open Float.Model

/-! ## What is not finite stays so -/

def Unbounded (u : UnpackedFloat) : Prop :=
  u = .notANumber ∨ ∃ s, u = .infinity s

theorem stands_or_unbounded (x : Float) : (∃ q, Stands x q) ∨ Unbounded x.toModel.unpack := by
  have hparts := parts_eq x
  generalize x.toModel.unpack = u at hparts
  cases u with
  | notANumber => exact .inr (.inl rfl)
  | infinity s => exact .inr (.inr ⟨s, rfl⟩)
  | zero s => exact .inl ⟨_, congrArg Parts.value? hparts⟩
  | finite s m e hpos => exact .inl ⟨_, congrArg Parts.value? hparts⟩

theorem Unbounded.add {u : UnpackedFloat} (h : Unbounded u) (v : UnpackedFloat) :
    Unbounded (UnpackedFloat.add .binary64 u v) := by
  obtain rfl | ⟨s, rfl⟩ := h
  · exact .inl rfl
  · cases v with
    | infinity s' =>
      cases s <;> cases s'
      · exact .inr ⟨_, rfl⟩
      · exact .inl rfl
      · exact .inl rfl
      · exact .inr ⟨_, rfl⟩
    | notANumber => exact .inl rfl
    | zero s' => exact .inr ⟨s, rfl⟩
    | finite s' m e hpos => exact .inr ⟨s, rfl⟩

theorem Unbounded.mul {u : UnpackedFloat} (h : Unbounded u) (v : UnpackedFloat) :
    Unbounded (UnpackedFloat.mul .binary64 u v) := by
  obtain rfl | ⟨s, rfl⟩ := h
  · exact .inl rfl
  · cases v with
    | infinity s' => exact .inr ⟨s * s', rfl⟩
    | notANumber => exact .inl rfl
    | zero s' => exact .inl rfl
    | finite s' m e hpos => exact .inr ⟨s * s', rfl⟩

theorem Unbounded.not_stands {u : UnpackedFloat} {x : Float} (h : Unbounded u)
    (hx : x.toModel.unpack = UnpackedFloat.unpack .binary64 (UnpackedFloat.pack .binary64 u))
    (q : ℚ) : ¬ Stands x q := by
  rw [Stands, parts_eq, hx]
  obtain rfl | ⟨s, rfl⟩ := h
  · intro hvalue
    cases hvalue
  · intro hvalue
    cases s <;> cases hvalue

theorem exists_stands_of_add {x y : Float} {v : ℚ} (h : Stands (x + y) v) : ∃ p, Stands x p := by
  refine (stands_or_unbounded x).resolve_right fun hodd => ?_
  have hsum : (x + y).toModel.unpack = UnpackedFloat.unpack .binary64 (UnpackedFloat.pack .binary64
      (UnpackedFloat.add .binary64 x.toModel.unpack y.toModel.unpack)) := rfl
  exact (hodd.add _).not_stands hsum v h

theorem exists_stands_of_mul {x y : Float} {v : ℚ} (h : Stands (x * y) v) : ∃ p, Stands x p := by
  refine (stands_or_unbounded x).resolve_right fun hodd => ?_
  have hproduct : (x * y).toModel.unpack = UnpackedFloat.unpack .binary64
      (UnpackedFloat.pack .binary64
        (UnpackedFloat.mul .binary64 x.toModel.unpack y.toModel.unpack)) := rfl
  exact (hodd.mul _).not_stands hproduct v h

/-! ## Rounding down -/

theorem Stands.ofInt_floor {x : Float} {q : ℚ} (h : Stands x q) : Stands (ofInt ⌊q⌋) ⌊q⌋ := by
  obtain ⟨negative, m, e, -, hm, -, hq⟩ := h.exists_parts
  by_cases he : 0 ≤ e
  · -- a double with such an exponent is an integer
    have hwhole : ∃ k : ℤ, q = k := by
      have hpower : (2 : ℚ) ^ e = (2 ^ e.toNat : ℤ) := by
        push_cast
        rw [← zpow_natCast, Int.toNat_of_nonneg he]
      rw [hq, signed, hpower]
      cases negative
      · exact ⟨m * 2 ^ e.toNat, by simp⟩
      · exact ⟨-(m * 2 ^ e.toNat), by simp⟩
    obtain ⟨k, rfl⟩ := hwhole
    rw [Int.floor_intCast]
    exact (standsNear_ofInt k).stands h.rounds h.abs_lt
  · have hsmall : |q| ≤ 2 ^ 52 := by
      have hbound : (m : ℚ) ≤ 2 ^ (53 : ℤ) := by exact_mod_cast hm.bound.le
      rw [hq, abs_signed]
      calc (m * 2 ^ e : ℚ) ≤ 2 ^ (53 : ℤ) * 2 ^ e :=
            mul_le_mul_of_nonneg_right hbound (two_zpow_pos e).le
        _ = 2 ^ (53 + e) := (two_zpow_add 53 e).symm
        _ ≤ 2 ^ (52 : ℤ) := two_zpow_le (by omega)
    obtain ⟨hlow, hhigh⟩ := abs_le.1 hsmall
    have hleast : (-2 ^ 52 : ℤ) ≤ ⌊q⌋ := Int.le_floor.2 (by exact_mod_cast hlow)
    have hmost : ⌊q⌋ ≤ (2 ^ 52 : ℤ) := by exact_mod_cast (Int.floor_le q).trans hhigh
    exact stands_ofInt (by omega)

end Decimal

/-! ## Hundredths -/

open Decimal

/-- The steps from a number to the one that it is reported as. -/
def Hundredth (q r : ℚ) : Prop :=
  ∃ x product shifted, Rounds q x ∧ Rounds (x * 100) product ∧ Rounds (product + 1 / 2) shifted ∧
    Rounds (⌊shifted⌋ / 100) r

theorem Hundredth.mono {p q r s : ℚ} (hp : Hundredth p r) (hq : Hundredth q s) (hpq : p ≤ q) :
    r ≤ s := by
  obtain ⟨x, product, shifted, hx, hproduct, hshifted, hr⟩ := hp
  obtain ⟨x', product', shifted', hx', hproduct', hshifted', hs⟩ := hq
  have hx : x ≤ x' := hx.mono hx' hpq
  have hproduct : product ≤ product' := hproduct.mono hproduct' (by linarith)
  have hshifted : shifted ≤ shifted' := hshifted.mono hshifted' (by linarith)
  have hfloor : (⌊shifted⌋ : ℚ) ≤ ⌊shifted'⌋ := by exact_mod_cast Int.floor_mono hshifted
  exact hr.mono hs (by linarith)

/-- A reported number is half a hundredth away at most, apart from what the doubles are off. -/
theorem Hundredth.near {q r : ℚ} (h : Hundredth q r) :
    |r - q| ≤ 1 / 200 + (|q| + 1) / 2 ^ 50 := by
  obtain ⟨x, product, shifted, hx, hproduct, hshifted, hr⟩ := h
  obtain ⟨hx_low, hx_high⟩ := abs_le.1 hx.near
  obtain ⟨hproduct_low, hproduct_high⟩ := abs_le.1 hproduct.near
  obtain ⟨hshifted_low, hshifted_high⟩ := abs_le.1 hshifted.near
  obtain ⟨hr_low, hr_high⟩ := abs_le.1 hr.near
  have hfloor_low := Int.floor_le shifted
  have hfloor_high := Int.lt_floor_add_one shifted
  generalize (⌊shifted⌋ : ℚ) = n at *
  have hq_low := neg_abs_le q
  have hq_high := le_abs_self q
  have hq := abs_nonneg q
  generalize |q| = size at *
  -- the sizes on the way, by that of the number
  have hx : |x * 100| ≤ 101 * size + 1 := abs_le.2 ⟨by linarith, by linarith⟩
  have hproduct : |product + 1 / 2| ≤ 101 * size + 2 := abs_le.2 ⟨by linarith, by linarith⟩
  have hn : |n / 100| ≤ 2 * size + 1 := abs_le.2 ⟨by linarith, by linarith⟩
  exact abs_le.2 ⟨by linarith, by linarith⟩

namespace Number

theorem toFloat_ok {a : Number} {x : Float} {p : ℚ} (h : a.toFloat = .ok x) (hx : Stands x p) :
    ∃ q, a.value? = some (Extended.ofRat q) ∧ Rounds q p := by
  cases a with
  | float y =>
    obtain rfl := Except.ok.inj h
    exact ⟨p, hx, hx.rounds⟩
  | int n =>
    have hsame : ofInt n = x := by
      unfold toFloat at h
      simp only at h
      split at h
      · cases h
      · exact Except.ok.inj h
    exact ⟨n, rfl, (standsNear_ofInt n).rounds (hsame ▸ hx)⟩

theorem stands_hundred : Stands 100.0 100 := by
  have hparts : parts 100.0 = .finite false 7036874417766400 (-46) := by decide +kernel
  rw [Stands, hparts]
  refine congrArg (fun q => some (Extended.ofRat q)) ?_
  norm_num [signed]

theorem stands_half : Stands 0.5 (1 / 2) := by
  have hparts : parts 0.5 = .finite false 4503599627370496 (-53) := by decide +kernel
  rw [Stands, hparts]
  refine congrArg (fun q => some (Extended.ofRat q)) ?_
  norm_num [signed]

/-- A number that can be reported stands for a rational, and so does what it is reported as. -/
theorem exists_hundredth {a b : Number} (h : a.hundredths = .ok b) : ∃ q r,
    a.value? = some (Extended.ofRat q) ∧ b.value? = some (Extended.ofRat r) ∧ Hundredth q r := by
  unfold hundredths at h
  obtain ⟨x, hx, h⟩ := bind_ok h
  obtain ⟨n, hn, h⟩ := bind_ok h
  obtain rfl := Except.ok.inj h
  obtain ⟨shifted, hshifted, rfl⟩ := floor_ok hn
  obtain ⟨product, hproduct⟩ := exists_stands_of_add hshifted
  obtain ⟨p, hp⟩ := exists_stands_of_mul hproduct
  obtain ⟨q, hq, hround⟩ := toFloat_ok hx hp
  have hfloor := hshifted.ofInt_floor
  have hsmall : |(⌊shifted⌋ / 100 : ℚ)| < 2 ^ (1023 : ℤ) := by
    have hless := hfloor.abs_lt
    have hdouble : (2 : ℚ) ^ (1024 : ℤ) = 2 ^ (1 : ℤ) * 2 ^ (1023 : ℤ) := two_zpow_add 1 1023
    rw [abs_div, abs_of_pos (by norm_num : (0 : ℚ) < 100), div_lt_iff₀ (by norm_num)]
    rw [hdouble] at hless
    have hpos := two_zpow_pos 1023
    generalize (2 : ℚ) ^ (1023 : ℤ) = top at hless hpos ⊢
    rw [zpow_one] at hless
    linarith only [hless, hpos]
  obtain ⟨r, hr, hreported⟩ := (standsNear_div hfloor stands_hundred
    (by norm_num)).exists_stands hsmall
  exact ⟨q, r, hq, hreported, p, product, shifted, hround,
    (standsNear_mul hp stands_hundred).rounds hproduct,
    (standsNear_add hproduct stands_half).rounds hshifted, hr⟩

/-- What a number is reported as: a double that no other is nearer than to a whole number of
hundredths.  It is half a hundredth away at most, apart from what the doubles are off. -/
structure ReportedAs (exact reported : Number) : Prop where
  hundredths : ∃ (r : ℚ) (n : ℤ), reported.value? = some (Extended.ofRat r) ∧
    ∀ (x : Float) (w : ℚ), (Number.float x).value? = some (Extended.ofRat w) →
      |r - n / 100| ≤ |w - n / 100|
  near : ∃ q r : ℚ, exact.value? = some (Extended.ofRat q) ∧
    reported.value? = some (Extended.ofRat r) ∧ |r - q| ≤ 1 / 200 + (|q| + 1) / 2 ^ 50

theorem reportedAs_of_hundredths {a b : Number} (h : a.hundredths = .ok b) : a.ReportedAs b := by
  obtain ⟨q, r, ha, hb, hsteps⟩ := exists_hundredth h
  have hnear := hsteps.near
  obtain ⟨x, product, shifted, -, -, -, hr⟩ := hsteps
  exact ⟨⟨r, ⌊shifted⌋, hb, fun y w hy => hr.closest hy⟩, q, r, ha, hb, hnear⟩

/-- Numbers are reported in their order. -/
theorem hundredths_mono {a b c d : Number} (ha : a.hundredths = .ok c) (hb : b.hundredths = .ok d)
    (hle : b.less a = false) : d.less c = false := by
  obtain ⟨p, r, hp, hr, hfirst⟩ := exists_hundredth ha
  obtain ⟨q, s, hq, hs, hsecond⟩ := exists_hundredth hb
  rw [less_eq_decide hq hp, decide_eq_false_iff_not, ofRat_lt_ofRat, not_lt] at hle
  rw [less_eq_decide hs hr, decide_eq_false_iff_not, ofRat_lt_ofRat, not_lt]
  exact hfirst.mono hsecond hle

theorem isNaN_of_hundredths {a b : Number} (h : a.hundredths = .ok b) : a.isNaN = false := by
  obtain ⟨q, -, hq, -⟩ := exists_hundredth h
  refine Bool.eq_false_iff.2 fun hnan => ?_
  rw [(value?_eq_none_iff a).2 hnan] at hq
  cases hq

end Number

end Latency
