import Mathlib.Data.List.TakeWhile
import Mathlib.Tactic.Common
import Latency.Text.Numeral
import Latency.Text.Quoted
/-!
# Digits that are written and read

The decimal digits of a number are plain digits, begin with a zero only for zero, and are read back
to the number.  So is every digit in base sixteen.
-/

namespace Latency.Text

/-! ## Plain digits -/

theorem toNat_of_isDigit {c : Char} (h : isDigit c = true) : 48 ≤ c.toNat ∧ c.toNat < 58 := by
  simp only [isDigit, Bool.and_eq_true, decide_eq_true_eq] at h
  exact ⟨h.1, Nat.lt_succ_of_le h.2⟩

theorem isBlank_of_isDigit {c : Char} (h : isDigit c = true) : isBlank c = false := by
  have hrange := toNat_of_isDigit h
  simp [isBlank]
  omega

theorem isPadding_of_isDigit {c : Char} (h : isDigit c = true) : isPadding c = false := by
  rw [isPadding, isBlank_of_isDigit h, Bool.false_and]

theorem digitValue?_of_isDigit {c : Char} (h : isDigit c = true) :
    digitValue? c = some (c.toNat - 48) := by
  have hrange := toNat_of_isDigit h
  rw [digitValue?, digitZeros, List.find?_cons_of_pos (by simpa using hrange)]
  rfl

/-! ## The digits of a number -/

theorem isDigit_of_mem_toDigits {c : Char} {n : Nat} (h : c ∈ Nat.toDigits 10 n) :
    isDigit c = true :=
  Nat.isDigit_of_mem_toDigits (by omega) (by omega) h

theorem toDigits_ne_nil (n : Nat) : Nat.toDigits 10 n ≠ [] :=
  List.ne_nil_of_length_pos Nat.length_toDigits_pos

theorem toDigits_eq_cons (n : Nat) :
    ∃ c ds, Nat.toDigits 10 n = c :: ds ∧ isDigit c = true := by
  obtain ⟨c, ds, hds⟩ := List.exists_cons_of_ne_nil (toDigits_ne_nil n)
  exact ⟨c, ds, hds, isDigit_of_mem_toDigits (hds ▸ List.mem_cons_self)⟩

theorem natOfDigits_toDigits (n : Nat) : natOfDigits (Nat.toDigits 10 n) = n :=
  Nat.ofDigitChars_ten_toDigits

theorem eq_zero_of_toDigits_eq_cons {n : Nat} {ds : List Char}
    (h : Nat.toDigits 10 n = '0' :: ds) : n = 0 ∧ ds = [] := by
  induction n using Nat.strongRecOn generalizing ds with
  | ind n ih =>
    rw [Nat.toDigits_eq_if (by omega)] at h
    split at h
    · obtain ⟨hdigit, hrest⟩ := List.cons.inj h
      exact ⟨Nat.digitChar_eq_zero.1 hdigit, hrest.symm⟩
    · next hlarge =>
      obtain ⟨first, front, hfront⟩ := List.exists_cons_of_ne_nil (toDigits_ne_nil (n / 10))
      rw [hfront, List.cons_append] at h
      obtain ⟨rfl, -⟩ := List.cons.inj h
      have hzero := (ih (n / 10) (by omega) hfront).1
      omega

/-! ## Reading integers -/

/-- Digits have a value behind a digit, and on their own if there are any. -/
theorem digitsValue?_digits {ds : List Char} (h : ∀ c ∈ ds, isDigit c = true) (value : Nat)
    {previous : Bool} (hsome : previous = true ∨ ds ≠ []) :
    digitsValue? value previous ds = some (Nat.ofDigitChars 10 ds value) := by
  induction ds generalizing value previous with
  | nil =>
    obtain rfl := hsome.resolve_right (by simp)
    rfl
  | cons c ds ih =>
    obtain ⟨hfirst, hothers⟩ := List.forall_mem_cons.1 h
    have hline : c ≠ '_' := by
      rintro rfl
      cases hfirst
    rw [digitsValue?, digitValue?_of_isDigit hfirst, Nat.ofDigitChars_cons]
    · exact ih hothers _ (.inl rfl)
    · exact hline

theorem trimBy_around {α : Type} {p : α → Bool} {front xs back : List α}
    (hfront : ∀ x ∈ front, p x = true) (h : ∀ x ∈ xs, p x = false)
    (hback : ∀ x ∈ back, p x = true) : trimBy p (front ++ (xs ++ back)) = xs := by
  have hreverse : ∀ x ∈ back.reverse, p x = true := by simpa using hback
  rw [trimBy, List.dropWhile_append_of_pos hfront]
  cases xs with
  | nil =>
    rw [List.nil_append, List.dropWhile_eq_nil_iff.2 hback]
    rfl
  | cons x xs =>
    have hlast : ((x :: xs).reverse).dropWhile p = (x :: xs).reverse := by
      obtain ⟨y, ys, hys⟩ := List.exists_cons_of_ne_nil (l := (x :: xs).reverse) (by simp)
      have hy : p y = false := h y (List.mem_reverse.1 (hys ▸ List.mem_cons_self))
      rw [hys, List.dropWhile_cons_of_neg (by simp [hy])]
    have hfirst : ¬ p x = true := by simp [h x List.mem_cons_self]
    rw [List.cons_append, List.dropWhile_cons_of_neg hfirst, ← List.cons_append,
      List.reverse_append, List.dropWhile_append_of_pos hreverse, hlast, List.reverse_reverse]

theorem trimBy_eq_self {α : Type} {p : α → Bool} {xs : List α} (h : ∀ x ∈ xs, p x = false) :
    trimBy p xs = xs := by
  have htrim : trimBy p ([] ++ (xs ++ [])) = xs := trimBy_around (by simp) h (by simp)
  rwa [List.append_nil] at htrim

theorem intOfText?_toDigits {n : Nat} (h : (Nat.toDigits 10 n).length ≤ mostDigits) :
    intOfText? (String.ofList (Nat.toDigits 10 n)) = some (n : Int) := by
  have hdigits (c : Char) (hc : c ∈ Nat.toDigits 10 n) : isDigit c = true :=
    isDigit_of_mem_toDigits hc
  have hvalue : decimal? (Nat.toDigits 10 n) = some n := by
    rw [decimal?, if_neg (Nat.not_lt.2 (Nat.le_trans List.countP_le_length h)),
      digitsValue?_digits hdigits 0 (.inr (toDigits_ne_nil n))]
    exact congrArg some (natOfDigits_toDigits n)
  rw [intOfText?, String.toList_ofList,
    trimBy_eq_self fun c hc => isPadding_of_isDigit (hdigits c hc)]
  split
  · next hsign => cases hdigits '-' (hsign ▸ List.mem_cons_self)
  · next hsign => cases hdigits '+' (hsign ▸ List.mem_cons_self)
  · rw [hvalue]
    rfl

/-! ## Base sixteen -/

theorem hexValue?_digitChar : ∀ d < 16, hexValue? (Nat.digitChar d) = some d := by
  decide

theorem hexDigits_four (n : Nat) :
    hexDigits 4 n =
      [Nat.digitChar (n / 4096 % 16), Nat.digitChar (n / 256 % 16), Nat.digitChar (n / 16 % 16),
        Nat.digitChar (n % 16)] := by
  simp [hexDigits, Nat.div_div_eq_div_mul]

end Latency.Text
