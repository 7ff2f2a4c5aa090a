import Latency.Proofs.Number.Sign
import Latency.Proofs.Order.Sorted
/-!
# What numbers stand for

A number stands for a rational or an infinity, or for nothing at all.  Doubles are compared by their
exponents and then by their mantissas, and with integers by their quotients.  In every case this
compares what the two sides stand for (`compare?_eq`), so numbers are in one linear order, whatever
their kinds.
-/

namespace Latency

/-- Rationals and two infinities. -/
abbrev Extended := WithBot (WithTop ℚ)

def Extended.ofRat (q : ℚ) : Extended := (q : WithTop ℚ)

theorem bot_lt_ofRat (q : ℚ) : (⊥ : Extended) < Extended.ofRat q :=
  WithBot.bot_lt_coe _

theorem ofRat_lt_top (q : ℚ) : Extended.ofRat q < (⊤ : Extended) :=
  WithBot.coe_lt_coe.2 (WithTop.coe_lt_top q)

theorem ofRat_lt_ofRat {q r : ℚ} : Extended.ofRat q < Extended.ofRat r ↔ q < r :=
  WithBot.coe_lt_coe.trans WithTop.coe_lt_coe

theorem compare_eq_of_lt_iff {α β : Type} [LinearOrder α] [LinearOrder β] {a b : α} {x y : β}
    (hlt : a < b ↔ x < y) (hgt : b < a ↔ y < x) : compare a b = compare x y := by
  obtain h | rfl | h := lt_trichotomy a b
  · rw [compare_lt_iff_lt.2 h, compare_lt_iff_lt.2 (hlt.1 h)]
  · have hxy : x = y := le_antisymm (not_lt.1 (mt hgt.2 (lt_irrefl a)))
      (not_lt.1 (mt hlt.2 (lt_irrefl a)))
    rw [compare_eq_iff_eq.2 rfl, compare_eq_iff_eq.2 hxy]
  · rw [compare_gt_iff_gt.2 h, compare_gt_iff_gt.2 (hgt.1 h)]

theorem compare_swap_eq_neg (q r : ℚ) : (compare q r).swap = compare (-q) (-r) :=
  Std.OrientedOrd.eq_swap.symm.trans
    (compare_eq_of_lt_iff neg_lt_neg_iff.symm neg_lt_neg_iff.symm)

theorem compare_ofRat (q r : ℚ) : compare (Extended.ofRat q) (Extended.ofRat r) = compare q r :=
  compare_eq_of_lt_iff ofRat_lt_ofRat ofRat_lt_ofRat

namespace Decimal

open Float.Model

def signed (negative : Bool) (mantissa : Nat) (exponent : Int) : ℚ :=
  if negative then -(mantissa * 2 ^ exponent) else mantissa * 2 ^ exponent

def Parts.value? : Parts → Option Extended
  | .finite negative m e => some (Extended.ofRat (signed negative m e))
  | .infinite negative => some (if negative then ⊥ else ⊤)
  | .nan => none

/-! ## Doubles and integers -/

theorem ratio_eq (m : Nat) (e : Int) :
    ((ratio m e).1 : ℚ) = m * 2 ^ e * (ratio m e).2 ∧ (0 : ℚ) < (ratio m e).2 := by
  cases e with
  | ofNat k => simp [ratio]
  | negSucc k => simp [ratio, zpow_negSucc]

theorem compareFinite_eq (negative : Bool) (m : Nat) (e n : Int) :
    Number.compareFinite negative m e n = compare (signed negative m e) (n : ℚ) := by
  obtain ⟨hnum, hden⟩ := ratio_eq m e
  have hvalue : (((if negative then -((ratio m e).1 : Int) else (ratio m e).1) : Int) : ℚ) =
      signed negative m e * (ratio m e).2 := by
    cases negative <;> simp [signed, hnum]
  have hinteger : ((n * (ratio m e).2 : Int) : ℚ) = n * (ratio m e).2 := by
    push_cast
    rfl
  change compare (if negative then -((ratio m e).1 : Int) else (ratio m e).1)
    (n * (ratio m e).2 : Int) = _
  refine compare_eq_of_lt_iff ?_ ?_
  all_goals
    rw [← Int.cast_lt (R := ℚ), hvalue, hinteger]
    exact mul_lt_mul_iff_left₀ hden

/-! ## Doubles and doubles -/

/-- How a double writes a finite number: the mantissa is full unless the exponent is the least. -/
structure Canonical (m : Nat) (e : Int) : Prop where
  least : -1074 ≤ e
  bound : m < 2 ^ 53
  full : -1074 < e → 2 ^ 52 ≤ m

theorem canonical_of_parts {x : Float} {negative : Bool} {m : Nat} {e : Int}
    (h : parts x = .finite negative m e) : Canonical m e := by
  have hfraction : Nat.pow 2 52 = 2 ^ 52 := rfl
  have hlt : x.toBits.toNat % 2 ^ 52 < 2 ^ 52 := Nat.mod_lt _ (by decide)
  unfold parts Parts.ofBits at h
  simp only [hfraction] at h
  split at h
  · split at h <;> cases h
  · split at h
    · obtain ⟨-, rfl, rfl⟩ := Parts.finite.inj h
      exact ⟨Int.le_refl _, hlt.trans (by decide), fun h => absurd h (by decide)⟩
    · obtain ⟨-, rfl, rfl⟩ := Parts.finite.inj h
      exact ⟨by omega, by omega, fun _ => Nat.le_add_left _ _⟩

/-- A greater exponent makes a greater number. -/
theorem Canonical.lt_of_exponent_lt {m n : Nat} {e f : Int} (hm : Canonical m e)
    (hn : Canonical n f) (h : e < f) : (m * 2 ^ e : ℚ) < n * 2 ^ f := by
  have hbound : (m : ℚ) < 2 ^ (53 : ℤ) := by exact_mod_cast hm.bound
  have hfull : (2 : ℚ) ^ (52 : ℤ) ≤ n := by
    exact_mod_cast hn.full (hm.least.trans_lt h)
  calc (m * 2 ^ e : ℚ) < 2 ^ (53 : ℤ) * 2 ^ e := by gcongr
    _ = 2 ^ (52 : ℤ) * 2 ^ (e + 1) := by
      rw [← zpow_add₀ two_ne_zero, ← zpow_add₀ two_ne_zero]
      congr 1
      ring
    _ ≤ n * 2 ^ f := by
      have hpower : (2 : ℚ) ^ (e + 1) ≤ 2 ^ f := zpow_le_zpow_right₀ (by norm_num) h
      gcongr

theorem Canonical.compare_eq {m n : Nat} {e f : Int} (hm : Canonical m e) (hn : Canonical n f) :
    (compare e f).then (compare m n) = compare (m * 2 ^ e : ℚ) (n * 2 ^ f) := by
  obtain h | rfl | h := lt_trichotomy e f
  · rw [compare_lt_iff_lt.2 h, compare_lt_iff_lt.2 (hm.lt_of_exponent_lt hn h)]
    rfl
  · have hpower : (0 : ℚ) < 2 ^ e := zpow_pos two_pos e
    rw [compare_eq_iff_eq.2 rfl]
    have hlt (k l : Nat) : k < l ↔ (k * 2 ^ e : ℚ) < l * 2 ^ e := by
      rw [mul_lt_mul_iff_left₀ hpower, Nat.cast_lt]
    exact compare_eq_of_lt_iff (hlt m n) (hlt n m)
  · rw [compare_gt_iff_gt.2 h, compare_gt_iff_gt.2 (hn.lt_of_exponent_lt hm h)]
    rfl

/-- What an unpacked double stands for, by its sign. -/
def unpackedValue? : UnpackedFloat → Option Extended
  | .notANumber => none
  | .infinity .negative => some ⊥
  | .infinity .positive => some ⊤
  | .zero _ => some (Extended.ofRat 0)
  | .finite .negative m e _ => some (Extended.ofRat (-(m * 2 ^ e)))
  | .finite .positive m e _ => some (Extended.ofRat (m * 2 ^ e))

theorem value?_ofUnpacked (u : UnpackedFloat) :
    (Parts.ofUnpacked u).value? = unpackedValue? u := by
  cases u with
  | notANumber => rfl
  | infinity s => cases s <;> rfl
  | zero s => cases s <;> simp [Parts.ofUnpacked, Parts.value?, unpackedValue?, signed]
  | finite s m e hm => cases s <;> rfl

/-- Unpacked doubles are compared by what they stand for. -/
theorem compare_unpacked {u v : UnpackedFloat}
    (hu : ∀ s m e h, u = .finite s m e h → Canonical m e)
    (hv : ∀ s m e h, v = .finite s m e h → Canonical m e) :
    u.compare v =
      (unpackedValue? u).bind fun a => (unpackedValue? v).map fun b => compare a b := by
  have hpos {m : Nat} (hm : 0 < m) (e : Int) : (0 : ℚ) < m * 2 ^ e :=
    mul_pos (Nat.cast_pos.2 hm) (zpow_pos two_pos e)
  have hlt {a b : Extended} (h : a < b) : some Ordering.lt = some (compare a b) :=
    congrArg some (compare_lt_iff_lt.2 h).symm
  have hgt {a b : Extended} (h : b < a) : some Ordering.gt = some (compare a b) :=
    congrArg some (compare_gt_iff_gt.2 h).symm
  have heq (a : Extended) : some Ordering.eq = some (compare a a) :=
    congrArg some (compare_eq_iff_eq.2 rfl).symm
  cases u with
  | notANumber => rfl
  | infinity s =>
    cases v with
    | notANumber => cases s <;> rfl
    | infinity t =>
      cases s <;> cases t
      · exact heq ⊥
      · exact hlt bot_lt_top
      · exact hgt bot_lt_top
      · exact heq ⊤
    | zero t =>
      cases s
      · exact hlt (bot_lt_ofRat 0)
      · exact hgt (ofRat_lt_top 0)
    | finite t n f hn =>
      cases s <;> cases t
      · exact hlt (bot_lt_ofRat _)
      · exact hlt (bot_lt_ofRat _)
      · exact hgt (ofRat_lt_top _)
      · exact hgt (ofRat_lt_top _)
  | zero s =>
    cases v with
    | notANumber => rfl
    | infinity t =>
      cases t
      · exact hgt (bot_lt_ofRat 0)
      · exact hlt (ofRat_lt_top 0)
    | zero t => exact heq (Extended.ofRat 0)
    | finite t n f hn =>
      cases t
      · exact hgt (ofRat_lt_ofRat.2 (neg_lt_zero.2 (hpos hn f)))
      · exact hlt (ofRat_lt_ofRat.2 (hpos hn f))
  | finite s m e hm =>
    cases v with
    | notANumber => cases s <;> rfl
    | infinity t =>
      cases s <;> cases t
      · exact hgt (bot_lt_ofRat _)
      · exact hlt (ofRat_lt_top _)
      · exact hgt (bot_lt_ofRat _)
      · exact hlt (ofRat_lt_top _)
    | zero t =>
      cases s
      · exact hlt (ofRat_lt_ofRat.2 (neg_lt_zero.2 (hpos hm e)))
      · exact hgt (ofRat_lt_ofRat.2 (hpos hm e))
    | finite t n f hn =>
      have hsame := (hu _ _ _ _ rfl).compare_eq (hv _ _ _ _ rfl)
      cases s <;> cases t
      · exact congrArg some ((congrArg _ hsame).trans
          ((compare_swap_eq_neg _ _).trans (compare_ofRat _ _).symm))
      · exact hlt (ofRat_lt_ofRat.2 ((neg_lt_zero.2 (hpos hm e)).trans (hpos hn f)))
      · exact hgt (ofRat_lt_ofRat.2 ((neg_lt_zero.2 (hpos hn f)).trans (hpos hm e)))
      · exact congrArg some (hsame.trans (compare_ofRat _ _).symm)

theorem canonical_unpack (x : Float) (s : UnpackedFloat.Sign) (m : Nat) (e : Int) (hm : 0 < m)
    (h : x.toModel.unpack = .finite s m e hm) : Canonical m e :=
  canonical_of_parts ((parts_eq x).trans (congrArg Parts.ofUnpacked h))

theorem compare_unpack (x y : Float) : x.toModel.unpack.compare y.toModel.unpack =
    (parts x).value?.bind fun a => (parts y).value?.map fun b => compare a b := by
  rw [parts_eq, parts_eq, value?_ofUnpacked, value?_ofUnpacked]
  exact compare_unpacked (canonical_unpack x) (canonical_unpack y)

end Decimal

namespace Number

/-- What a number stands for; what is no number stands for nothing. -/
def value? : Number → Option Extended
  | .int n => some (Extended.ofRat n)
  | .float x => (Decimal.parts x).value?

theorem value?_eq_none_iff (n : Number) : n.value? = none ↔ n.isNaN = true := by
  cases n with
  | int n => simp [value?, isNaN]
  | float x =>
    simp only [value?, isNaN]
    cases Decimal.parts x <;> simp [Decimal.Parts.value?]

theorem lt_iff_compare_unpack (x y : Float) :
    x < y ↔ x.toModel.unpack.compare y.toModel.unpack = some .lt := by
  have hlt : x < y ↔ x.toModel.unpack.lt y.toModel.unpack = true := by
    change decide (_ = true) = true ↔ _
    rw [decide_eq_true_iff]
    exact Iff.rfl
  exact hlt.trans beq_iff_eq

theorem beq_iff_compare_unpack (x y : Float) :
    (x == y) = true ↔ x.toModel.unpack.compare y.toModel.unpack = some .eq :=
  Iff.trans (Iff.rfl : _ ↔ x.toModel.unpack.beq y.toModel.unpack = true) beq_iff_eq

theorem compare?_float_float (x y : Float) : compare? (.float x) (.float y) =
    (Decimal.parts x).value?.bind fun a => (Decimal.parts y).value?.map fun b => compare a b := by
  simp only [compare?, lt_iff_compare_unpack, beq_iff_compare_unpack, Decimal.compare_unpack]
  cases (Decimal.parts x).value? with
  | none => cases (Decimal.parts y).value? <;> rfl
  | some a =>
    cases (Decimal.parts y).value? with
    | none => rfl
    | some b =>
      simp only [Option.bind_some, Option.map_some, Option.some.injEq, compare_lt_iff_lt,
        compare_eq_iff_eq]
      obtain h | rfl | h := lt_trichotomy a b
      · rw [if_pos h, compare_lt_iff_lt.2 h]
      · rw [if_neg (lt_irrefl a), if_neg (lt_irrefl a), if_pos rfl, compare_eq_iff_eq.2 rfl]
      · rw [if_neg h.not_gt, if_pos h, compare_gt_iff_gt.2 h]

theorem compare?_float_int (x : Float) (n : Int) : compare? (.float x) (.int n) =
    (Decimal.parts x).value?.map fun a => compare a (Extended.ofRat n) := by
  simp only [compare?]
  cases Decimal.parts x with
  | nan => rfl
  | infinite negative =>
    cases negative
    · exact congrArg some (compare_gt_iff_gt.2 (ofRat_lt_top _)).symm
    · exact congrArg some (compare_lt_iff_lt.2 (bot_lt_ofRat _)).symm
  | finite negative m e =>
    exact congrArg some ((Decimal.compareFinite_eq ..).trans (compare_ofRat _ _).symm)

/-- Numbers of all kinds are compared by what they stand for. -/
theorem compare?_eq (a b : Number) : a.compare? b =
    a.value?.bind fun v => b.value?.map fun w => compare v w := by
  cases a with
  | int n =>
    cases b with
    | int m =>
      have hlt (k l : Int) : k < l ↔ Extended.ofRat k < Extended.ofRat l := by
        rw [ofRat_lt_ofRat, Int.cast_lt]
      exact congrArg some (compare_eq_of_lt_iff (hlt n m) (hlt m n))
    | float y =>
      rw [compare?_int, compare?_float_int]
      simp only [value?]
      cases (Decimal.parts y).value? with
      | none => rfl
      | some v => exact congrArg some Std.OrientedOrd.eq_swap.symm
  | float x =>
    cases b with
    | int m =>
      rw [compare?_float_int]
      simp only [value?]
      cases (Decimal.parts x).value? <;> rfl
    | float y => exact compare?_float_float x y

theorem less_iff {a b : Number} : a.less b = true ↔
    ∃ v w, a.value? = some v ∧ b.value? = some w ∧ v < w := by
  unfold less
  rw [compare?_eq]
  cases a.value? <;> cases b.value? <;> simp [compare_lt_iff_lt]

theorem less_irrefl (a : Number) : a.less a = false := by
  refine Bool.eq_false_iff.2 fun h => ?_
  obtain ⟨v, w, hv, hw, hlt⟩ := less_iff.1 h
  exact hlt.ne (Option.some.inj (hv.symm.trans hw))

theorem equals_iff {a b : Number} : a.equals b = true ↔
    ∃ v, a.value? = some v ∧ b.value? = some v := by
  unfold equals
  rw [compare?_eq]
  cases a.value? with
  | none => simp
  | some v =>
    cases b.value? with
    | none => simp
    | some w => simpa [compare_eq_iff_eq] using eq_comm

/-! ## The order of what is a number -/

theorem exists_value? {n : Number} (h : n.isNaN = false) : ∃ v, n.value? = some v := by
  refine Option.ne_none_iff_exists'.1 (mt (value?_eq_none_iff n).1 ?_)
  rw [h]
  exact Bool.false_ne_true

section Values

variable {a b : Number} {v w : Extended}

theorem less_eq_decide (hv : a.value? = some v) (hw : b.value? = some w) :
    a.less b = decide (v < w) := by
  rw [Bool.eq_iff_iff, less_iff, decide_eq_true_iff, hv, hw]
  simp

theorem equals_eq_decide (hv : a.value? = some v) (hw : b.value? = some w) :
    a.equals b = decide (v = w) := by
  rw [Bool.eq_iff_iff, equals_iff, decide_eq_true_iff, hv, hw]
  simpa using eq_comm

theorem less_or_equals (ha : a.isNaN = false) (hb : b.isNaN = false) (h : b.less a = false) :
    a.less b = true ∨ a.equals b = true := by
  obtain ⟨v, hv⟩ := exists_value? ha
  obtain ⟨w, hw⟩ := exists_value? hb
  rw [less_eq_decide hw hv, decide_eq_false_iff_not, not_lt] at h
  rw [less_eq_decide hv hw, equals_eq_decide hv hw, decide_eq_true_iff, decide_eq_true_iff]
  exact h.lt_or_eq

end Values

/-- "Smaller" is a weak order of all that is a number. -/
theorem isWeak_less : Order.IsWeak fun a b : { n : Number // n.isNaN = false } =>
    a.val.less b.val where
  asymm {a b} h := by
    obtain ⟨v, hv⟩ := exists_value? a.property
    obtain ⟨w, hw⟩ := exists_value? b.property
    rw [less_eq_decide hv hw, decide_eq_true_iff] at h
    rw [less_eq_decide hw hv, decide_eq_false_iff_not]
    exact h.not_gt
  trans {a b c} hab hbc := by
    obtain ⟨u, hu⟩ := exists_value? a.property
    obtain ⟨v, hv⟩ := exists_value? b.property
    obtain ⟨w, hw⟩ := exists_value? c.property
    rw [less_eq_decide hv hu, decide_eq_false_iff_not, not_lt] at hab
    rw [less_eq_decide hw hv, decide_eq_false_iff_not, not_lt] at hbc
    rw [less_eq_decide hw hu, decide_eq_false_iff_not, not_lt]
    exact hab.trans hbc

end Number

end Latency
