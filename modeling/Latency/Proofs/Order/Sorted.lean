import Mathlib.Data.List.Chain
import Mathlib.Data.List.Basic
import Latency.Order
/-!
# Sorting sorts

Where "smaller" is a weak order, the run that is taken in front is in order, halving finds the one
place that keeps it so (`place_splits`), and a sorted list is in ascending order
(`sort_ascending`).
-/

namespace Latency.Order

variable {α : Type} {less : α → α → Bool}

/-- "Smaller" as a weak order: one of two elements is not smaller than the other, and what is not
smaller than an element is not smaller than those that it is not smaller than. -/
structure IsWeak (less : α → α → Bool) : Prop where
  asymm {a b : α} : less a b = true → less b a = false
  trans {a b c : α} : less b a = false → less c b = false → less c a = false

def Ascending (less : α → α → Bool) (xs : List α) : Prop :=
  xs.Pairwise fun a b => less b a = false

theorem IsWeak.ascending_of_isChain (hless : IsWeak less) {xs : List α}
    (h : xs.IsChain fun a b => less b a = false) : Ascending less xs := by
  have htrans : IsTrans α fun a b => less b a = false := ⟨fun _ _ _ => hless.trans⟩
  exact List.isChain_iff_pairwise.1 h

/-! ## The run in front -/

theorem isChain_run (related : α → α → Bool) (x : α) (ys : List α) :
    ((x :: ys).take (runLength related x ys + 1)).IsChain fun a b => related a b = true := by
  induction ys generalizing x with
  | nil => simp [runLength]
  | cons y ys ih =>
    rw [runLength]
    split
    · next hrelated =>
      rw [List.take_succ_cons, List.take_succ_cons, List.isChain_cons_cons]
      exact ⟨hrelated, ih y⟩
    · simp

theorem firstRun_ascending (hless : IsWeak less) (xs : List α) :
    Ascending less (firstRun less xs).1 := by
  match xs with
  | [] => exact .nil
  | [x] => exact List.pairwise_singleton _ x
  | x :: y :: rest =>
    have hdown := isChain_run (fun a b => less b a) x (y :: rest)
    have hup := isChain_run (fun a b => !less b a) x (y :: rest)
    rw [firstRun]
    split
    · exact hless.ascending_of_isChain
        (List.isChain_reverse.2 (hdown.imp fun a b => hless.asymm))
    · exact hless.ascending_of_isChain (hup.imp fun a b h => by simpa using h)

/-! ## The place of an element -/

/-- A number of elements in front that an element is not smaller than, all others being greater. -/
structure Splits (less : α → α → Bool) (x : α) (ys : List α) (low high : Nat) : Prop where
  low_le : low ≤ high
  high_le : high ≤ ys.length
  before (i : Nat) (h : i < ys.length) : i < low → less x ys[i] = false
  behind (i : Nat) (h : i < ys.length) : high ≤ i → less x ys[i] = true

theorem Splits.whole (x : α) (ys : List α) : Splits less x ys 0 ys.length where
  low_le := Nat.zero_le _
  high_le := Nat.le_refl _
  before i _ hi := absurd hi (Nat.not_lt_zero i)
  behind _ h hi := absurd h (Nat.not_lt.2 hi)

variable {x : α} {ys : List α}

theorem Splits.lower (hless : IsWeak less) (hys : Ascending less ys) {low high middle : Nat}
    (h : Splits less x ys low high) (hlow : low ≤ middle) (hmiddle : middle < ys.length)
    (hsmaller : less x ys[middle] = true) : Splits less x ys low middle where
  low_le := hlow
  high_le := Nat.le_of_lt hmiddle
  before := h.before
  behind i hi hfrom := by
    obtain hlt | rfl := Nat.lt_or_eq_of_le hfrom
    · by_contra hnot
      have hle := hless.trans (List.pairwise_iff_getElem.1 hys middle i hmiddle hi hlt)
        (Bool.eq_false_iff.2 hnot)
      rw [hsmaller] at hle
      cases hle
    · exact hsmaller

theorem Splits.upper (hless : IsWeak less) (hys : Ascending less ys) {low high middle : Nat}
    (h : Splits less x ys low high) (hhigh : middle < high) (hmiddle : middle < ys.length)
    (hnot : less x ys[middle] = false) : Splits less x ys (middle + 1) high where
  low_le := hhigh
  high_le := h.high_le
  before i hi hfrom := by
    obtain hlt | rfl := Nat.lt_or_eq_of_le (Nat.le_of_lt_succ hfrom)
    · exact hless.trans (List.pairwise_iff_getElem.1 hys i middle hi hmiddle hlt) hnot
    · exact hnot
  behind := h.behind

/-- Halving ends where the greater elements begin. -/
theorem place_splits (hless : IsWeak less) (hys : Ascending less ys) {low high : Nat}
    (h : Splits less x ys low high) :
    Splits less x ys (place less x ys.toArray low high) (place less x ys.toArray low high) := by
  fun_induction place less x ys.toArray low high with
  | case1 low high hlt middle hnone =>
    have hhigh := h.high_le
    rw [List.getElem?_toArray, List.getElem?_eq_none_iff] at hnone
    omega
  | case2 low high hlt middle y hsome hsmaller ih =>
    rw [List.getElem?_toArray] at hsome
    obtain ⟨hmiddle, rfl⟩ := List.getElem?_eq_some_iff.1 hsome
    exact ih (h.lower hless hys (Nat.le_add_right low _) hmiddle hsmaller)
  | case3 low high hlt middle y hsome hnot ih =>
    rw [List.getElem?_toArray] at hsome
    obtain ⟨hmiddle, rfl⟩ := List.getElem?_eq_some_iff.1 hsome
    exact ih (h.upper hless hys (by omega) hmiddle (Bool.eq_false_iff.2 hnot))
  | case4 low high hnot =>
    obtain rfl : low = high := Nat.le_antisymm h.low_le (Nat.le_of_not_lt hnot)
    exact h

theorem insert_ascending (hless : IsWeak less) (hys : Ascending less ys) :
    Ascending less (insert less x ys) := by
  have h := place_splits hless hys (Splits.whole x ys)
  unfold insert
  generalize place less x ys.toArray 0 ys.length = n at h
  have hparts : Ascending less (ys.take n ++ ys.drop n) := by rwa [List.take_append_drop]
  obtain ⟨hfront, hback, hacross⟩ := List.pairwise_append.1 hparts
  refine List.pairwise_append.2 ⟨hfront, List.pairwise_cons.2 ⟨fun y hy => ?_, hback⟩, ?_⟩
  · obtain ⟨i, hi, rfl⟩ := List.mem_iff_getElem.1 hy
    rw [List.getElem_drop]
    exact hless.asymm (h.behind _ _ (Nat.le_add_right n i))
  · intro a ha b hb
    obtain rfl | hb := List.mem_cons.1 hb
    · obtain ⟨i, hi, rfl⟩ := List.mem_iff_getElem.1 ha
      rw [List.getElem_take]
      exact h.before i _ (Nat.lt_of_lt_of_le hi (List.length_take_le _ _))
    · exact hacross a ha b hb

/-- Sorting brings the elements into ascending order. -/
theorem sort_ascending (hless : IsWeak less) (xs : List α) : Ascending less (sort less xs) := by
  have hfold (sorted rest : List α) (h : Ascending less sorted) :
      Ascending less (rest.foldl (fun acc x => insert less x acc) sorted) := by
    induction rest generalizing sorted with
    | nil => exact h
    | cons x rest ih => exact ih _ (insert_ascending hless h)
  exact hfold _ _ (firstRun_ascending hless xs)

end Latency.Order
