import Mathlib.Data.List.Forall2
import Latency.Order
/-!
# Sorting related lists

Sorting asks only which of two elements is smaller.  So it commutes with every map that keeps the
answers (`sort_map`), and lists that are related element by element, with the same answers on both
sides, stay so when they are sorted (`forall₂_sort`).
-/

namespace Latency.Order

variable {α β : Type} {less : α → α → Bool} {less' : β → β → Bool} {f : α → β}

theorem runLength_map (hless : ∀ x y, less' (f x) (f y) = less x y) (x : α) (xs : List α) :
    runLength less' (f x) (xs.map f) = runLength less x xs := by
  induction xs generalizing x with
  | nil => rfl
  | cons y ys ih => rw [List.map_cons, runLength, runLength, hless, ih]

theorem firstRun_map (hless : ∀ x y, less' (f x) (f y) = less x y) (xs : List α) :
    firstRun less' (xs.map f) = ((firstRun less xs).1.map f, (firstRun less xs).2.map f) := by
  match xs with
  | [] => rfl
  | [x] => rfl
  | x :: y :: rest =>
    have hdown : runLength (fun a b => less' b a) (f x) ((y :: rest).map f) =
        runLength (fun a b => less b a) x (y :: rest) :=
      runLength_map (fun a b => hless b a) x (y :: rest)
    have hup : runLength (fun a b => !less' b a) (f x) ((y :: rest).map f) =
        runLength (fun a b => !less b a) x (y :: rest) :=
      runLength_map (fun a b => congrArg (!·) (hless b a)) x (y :: rest)
    rw [List.map_cons] at hdown hup
    rw [List.map_cons, List.map_cons, firstRun, firstRun, hless, hdown, hup]
    split
    · simp only [List.map_reverse, List.map_take, List.map_drop, List.map_cons]
    · simp only [List.map_take, List.map_drop, List.map_cons]

theorem place_map (hless : ∀ x y, less' (f x) (f y) = less x y) (x : α) (ys : List α)
    (low high : Nat) :
    place less' (f x) (ys.map f).toArray low high = place less x ys.toArray low high := by
  fun_induction place less x ys.toArray low high with
  | case1 low high hlt middle hnone =>
    rw [place, dif_pos hlt]
    simp only [List.getElem?_toArray] at hnone ⊢
    rw [List.getElem?_map, hnone]
    rfl
  | case2 low high hlt middle y hsome hsmaller ih =>
    rw [place, dif_pos hlt]
    simp only [List.getElem?_toArray] at hsome ⊢
    rw [List.getElem?_map, hsome, Option.map_some]
    simp only [hless, hsmaller, if_true]
    exact ih
  | case3 low high hlt middle y hsome hnot ih =>
    rw [place, dif_pos hlt]
    simp only [List.getElem?_toArray] at hsome ⊢
    rw [List.getElem?_map, hsome, Option.map_some]
    simp only [hless, hnot]
    exact ih
  | case4 low high hnot => rw [place, dif_neg hnot]

theorem insert_map (hless : ∀ x y, less' (f x) (f y) = less x y) (x : α) (ys : List α) :
    insert less' (f x) (ys.map f) = (insert less x ys).map f := by
  unfold insert
  simp only [List.length_map, place_map hless, List.map_append, List.map_take, List.map_cons,
    List.map_drop]

theorem sort_map (hless : ∀ x y, less' (f x) (f y) = less x y) (xs : List α) :
    sort less' (xs.map f) = (sort less xs).map f := by
  have hfold (sorted rest : List α) :
      (rest.map f).foldl (fun acc x => insert less' x acc) (sorted.map f) =
        (rest.foldl (fun acc x => insert less x acc) sorted).map f := by
    induction rest generalizing sorted with
    | nil => rfl
    | cons x rest ih =>
      rw [List.map_cons, List.foldl_cons, List.foldl_cons, insert_map hless, ih]
  simp only [sort, firstRun_map hless, hfold]

theorem exists_pairs {R : α → β → Prop} {xs : List α} {ys : List β} (h : List.Forall₂ R xs ys) :
    ∃ pairs : List { p : α × β // R p.1 p.2 },
      pairs.map (·.val.1) = xs ∧ pairs.map (·.val.2) = ys := by
  induction h with
  | nil => exact ⟨[], rfl, rfl⟩
  | @cons x y xs ys hfirst _ ih =>
    obtain ⟨pairs, hleft, hright⟩ := ih
    refine ⟨⟨(x, y), hfirst⟩ :: pairs, ?_, ?_⟩
    · rw [List.map_cons, hleft]
    · rw [List.map_cons, hright]

/-- Related lists are related when they are sorted. -/
theorem forall₂_sort {R : α → β → Prop}
    (hless : ∀ x y x' y', R x x' → R y y' → less' x' y' = less x y) {xs : List α} {ys : List β}
    (h : List.Forall₂ R xs ys) : List.Forall₂ R (sort less xs) (sort less' ys) := by
  obtain ⟨pairs, rfl, rfl⟩ := exists_pairs h
  let smaller (p q : { p : α × β // R p.1 p.2 }) : Bool := less p.val.1 q.val.1
  have hleft : sort less (pairs.map (·.val.1)) = (sort smaller pairs).map (·.val.1) :=
    sort_map (fun p q => rfl) pairs
  have hright : sort less' (pairs.map (·.val.2)) = (sort smaller pairs).map (·.val.2) :=
    sort_map (fun p q => hless _ _ _ _ p.property q.property) pairs
  rw [hleft, hright, List.forall₂_map_left_iff, List.forall₂_map_right_iff, List.forall₂_same]
  exact fun p _ => p.property

end Latency.Order
