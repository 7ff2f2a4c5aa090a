import Mathlib.Data.List.Forall2
/-!
# Places in lists

The last element of a list that has a property, the elements of a list with their places, and lists
that correspond element by element.
-/

namespace Latency

variable {α : Type} {xs : List α}

/-! ## The last element with a property -/

/-- The last element of a list with a property: it has the property, and none behind it has. -/
def IsLast (p : α → Prop) (xs : List α) (x : α) : Prop :=
  ∃ front back, xs = front ++ x :: back ∧ p x ∧ ∀ y ∈ back, ¬ p y

variable {p : α → Prop} {x : α}

theorem exists_isLast (p : α → Prop) (xs : List α) :
    (∀ x ∈ xs, ¬ p x) ∨ ∃ x, IsLast p xs x := by
  induction xs with
  | nil => exact .inl fun x hx => nomatch hx
  | cons first rest ih =>
    obtain hnone | ⟨x, front, back, rfl, hx, hback⟩ := ih
    · by_cases hfirst : p first
      · exact .inr ⟨first, [], rest, rfl, hfirst, hnone⟩
      · exact .inl (List.forall_mem_cons.2 ⟨hfirst, hnone⟩)
    · exact .inr ⟨x, first :: front, back, rfl, hx, hback⟩

theorem find?_reverse_eq_some_iff {q : α → Bool} (hq : ∀ y, q y = true ↔ p y) :
    xs.reverse.find? q = some x ↔ IsLast p xs x := by
  rw [List.find?_eq_some_iff_append]
  constructor
  · rintro ⟨hx, front, back, hxs, hfront⟩
    refine ⟨back.reverse, front.reverse, ?_, (hq x).1 hx, fun y hy => ?_⟩
    · rw [← List.reverse_reverse xs, hxs]
      simp
    · rw [← hq, Bool.not_eq_true]
      simpa using hfront y (List.mem_reverse.1 hy)
  · rintro ⟨front, back, rfl, hx, hback⟩
    refine ⟨(hq x).2 hx, back.reverse, front.reverse, by simp, fun y hy => ?_⟩
    have hy := hback y (List.mem_reverse.1 hy)
    rw [← hq, Bool.not_eq_true] at hy
    simpa using hy

/-- An element with the property that none has at a later place is the last one. -/
theorem IsLast.eq_of_last (hlast : IsLast p xs x) {i : Nat} {y : α} (hy : xs[i]? = some y)
    (hp : p y) (hlater : ∀ j z, i < j → xs[j]? = some z → ¬ p z) : x = y := by
  obtain ⟨front, back, rfl, hx, hback⟩ := hlast
  have hplace : (front ++ x :: back)[front.length]? = some x := by simp
  rcases Nat.lt_trichotomy i front.length with hlt | rfl | hgt
  · exact absurd hx (hlater _ x hlt hplace)
  · exact Option.some.inj (hplace.symm.trans hy)
  · obtain ⟨k, rfl⟩ := Nat.exists_eq_add_of_lt hgt
    rw [Nat.add_assoc, List.getElem?_append_right (Nat.le_add_right _ _),
      Nat.add_sub_cancel_left, List.getElem?_cons_succ] at hy
    exact absurd hp (hback y (List.mem_of_getElem? hy))

/-! ## Elements with their places -/

theorem map_fst_filter_zipIdx (p : α → Bool) (xs : List α) :
    (xs.zipIdx.filter fun r => p r.1).map Prod.fst = xs.filter p := by
  have hfilter := List.filter_map (p := p) (f := Prod.fst) (l := xs.zipIdx)
  rw [List.zipIdx_map_fst] at hfilter
  exact hfilter.symm

theorem pairwise_zipIdx (xs : List α) : xs.zipIdx.Pairwise fun a b => a.2 < b.2 := by
  have hplaces : (xs.zipIdx.map Prod.snd).Pairwise (· < ·) := by
    rw [List.zipIdx_map_snd]
    exact List.pairwise_lt_range' 1
  exact List.pairwise_map.1 hplaces

theorem eq_of_place_eq {a b : α × Nat} (ha : a ∈ xs.zipIdx) (hb : b ∈ xs.zipIdx)
    (h : a.2 = b.2) : a = b := by
  have hfound := List.mem_zipIdx_iff_getElem?.1 ha
  rw [h, List.mem_zipIdx_iff_getElem?.1 hb] at hfound
  exact Prod.ext (Option.some.inj hfound).symm h

/-! ## Lists that correspond -/

/-- A relation that determines the second element from the first determines the second list. -/
theorem forall₂_iff_eq_map {β : Type} {R : α → β → Prop} {f : α → β}
    (h : ∀ x y, R x y ↔ y = f x) {ys : List β} : List.Forall₂ R xs ys ↔ ys = xs.map f := by
  constructor
  · intro hall
    induction hall with
    | nil => rfl
    | cons hfirst _ ih => rw [List.map_cons, ← ih, (h _ _).1 hfirst]
  · rintro rfl
    rw [List.forall₂_map_right_iff]
    exact List.forall₂_same.2 fun x _ => (h x _).2 rfl

end Latency
