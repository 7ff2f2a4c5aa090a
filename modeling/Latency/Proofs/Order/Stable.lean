import Latency.Proofs.Order.Related
import Latency.Proofs.Order.Sorted
/-!
# Sorting is stable

Where "smaller" is a weak order, sorting leaves elements of which none is smaller in the order in
which they stood (`sort_stable`).  No other arrangement does (`eq_sort_of_before`), so what was made
in another way can be shown to be the sorted list.
-/

namespace Latency.Order

variable {α β : Type} {less : α → α → Bool} {stood : α → α → Prop}

/-- One element goes in front of another: it is smaller, or it is not greater and stood there. -/
def Before (less : α → α → Bool) (stood : α → α → Prop) (a b : α) : Prop :=
  less a b = true ∨ less b a = false ∧ stood a b

theorem IsWeak.strict_trans (hless : IsWeak less) {a b c : α} (hab : less a b = true)
    (hbc : less b c = true) : less a c = true := by
  by_contra hac
  have hnot := hless.trans (hless.asymm hbc) (Bool.eq_false_iff.2 hac)
  rw [hab] at hnot
  cases hnot

theorem IsWeak.comap (hless : IsWeak less) (f : β → α) :
    IsWeak fun a b => less (f a) (f b) where
  asymm := hless.asymm
  trans := hless.trans

theorem IsWeak.ascending_of_before (hless : IsWeak less) {xs : List α}
    (h : xs.Pairwise (Before less stood)) : Ascending less xs :=
  h.imp fun hbefore => hbefore.elim hless.asymm And.left

/-! ## The run in front -/

theorem firstRun_eq (less : α → α → Bool) (xs : List α) : ∃ n,
    (firstRun less xs).1.Perm (xs.take n) ∧ (firstRun less xs).2 = xs.drop n := by
  match xs with
  | [] => exact ⟨0, .refl _, rfl⟩
  | [x] => exact ⟨1, .refl _, rfl⟩
  | x :: y :: rest =>
    rw [firstRun]
    split
    · exact ⟨_, List.reverse_perm _, rfl⟩
    · exact ⟨_, .refl _, rfl⟩

theorem firstRun_stable (hless : IsWeak less) {xs : List α} (h : xs.Pairwise stood) :
    (firstRun less xs).1.Pairwise (Before less stood) := by
  match xs with
  | [] => exact .nil
  | [x] => exact List.pairwise_singleton _ x
  | x :: y :: rest =>
    have hdown := isChain_run (fun a b => less b a) x (y :: rest)
    have hup := firstRun_ascending hless (x :: y :: rest)
    rw [firstRun] at hup ⊢
    by_cases hsmaller : less y x = true
    · rw [if_pos hsmaller]
      -- A run in reverse order has no equal elements.
      have htrans : IsTrans α fun a b => less a b = true := ⟨fun _ _ _ => hless.strict_trans⟩
      exact (List.isChain_iff_pairwise.1 (List.isChain_reverse.2 hdown)).imp .inl
    · rw [if_neg hsmaller] at hup ⊢
      exact hup.imp₂ (fun _ _ hle hstood => .inr ⟨hle, hstood⟩) (h.sublist (List.take_sublist _ _))

/-! ## Putting in and sorting -/

theorem insert_stable (hless : IsWeak less) {x : α} {ys : List α}
    (hys : ys.Pairwise (Before less stood)) (hx : ∀ y ∈ ys, stood y x) :
    (insert less x ys).Pairwise (Before less stood) := by
  have h := place_splits hless (hless.ascending_of_before hys) (Splits.whole x ys)
  unfold insert
  generalize place less x ys.toArray 0 ys.length = n at h
  have hparts : (ys.take n ++ ys.drop n).Pairwise (Before less stood) := by
    rwa [List.take_append_drop]
  obtain ⟨hfront, hback, hacross⟩ := List.pairwise_append.1 hparts
  refine List.pairwise_append.2 ⟨hfront, List.pairwise_cons.2 ⟨fun y hy => ?_, hback⟩, ?_⟩
  · obtain ⟨i, hi, rfl⟩ := List.mem_iff_getElem.1 hy
    rw [List.getElem_drop]
    exact .inl (h.behind _ _ (Nat.le_add_right n i))
  · intro a ha b hb
    obtain rfl | hb := List.mem_cons.1 hb
    · refine .inr ⟨?_, hx a (List.mem_of_mem_take ha)⟩
      obtain ⟨i, hi, rfl⟩ := List.mem_iff_getElem.1 ha
      rw [List.getElem_take]
      exact h.before i _ (Nat.lt_of_lt_of_le hi (List.length_take_le _ _))
    · exact hacross a ha b hb

/-- Sorting puts smaller elements in front, and leaves the others in the order in which they
stood. -/
theorem sort_stable (hless : IsWeak less) {xs : List α} (h : xs.Pairwise stood) :
    (sort less xs).Pairwise (Before less stood) := by
  have hfold (sorted rest : List α) (hsorted : sorted.Pairwise (Before less stood))
      (hrest : rest.Pairwise stood) (hacross : ∀ a ∈ sorted, ∀ b ∈ rest, stood a b) :
      (rest.foldl (fun acc x => insert less x acc) sorted).Pairwise (Before less stood) := by
    induction rest generalizing sorted with
    | nil => exact hsorted
    | cons x rest ih =>
      obtain ⟨hfirst, hrest⟩ := List.pairwise_cons.1 hrest
      refine ih _ (insert_stable hless hsorted fun y hy => hacross y hy x List.mem_cons_self) hrest
        fun a ha b hb => ?_
      obtain rfl | ha := List.mem_cons.1 ((perm_insert less x sorted).mem_iff.1 ha)
      · exact hfirst b hb
      · exact hacross a ha b (List.mem_cons_of_mem x hb)
  obtain ⟨n, hrun, hbehind⟩ := firstRun_eq less xs
  have hparts : (xs.take n ++ xs.drop n).Pairwise stood := by rwa [List.take_append_drop]
  obtain ⟨-, hrest, hacross⟩ := List.pairwise_append.1 hparts
  rw [← hbehind] at hrest hacross
  exact hfold _ _ (firstRun_stable hless h) hrest fun a ha => hacross a (hrun.mem_iff.1 ha)

/-- No other arrangement of the elements is sorted in this way. -/
theorem eq_sort_of_before (hless : IsWeak less) (hstood : ∀ a b, stood a b → ¬ stood b a)
    {xs ys : List α} (h : xs.Pairwise stood) (hperm : ys.Perm xs)
    (hys : ys.Pairwise (Before less stood)) : ys = sort less xs := by
  refine (hperm.trans (perm_sort less xs).symm).eq_of_pairwise ?_ hys (sort_stable hless h)
  intro a b _ _ hab hba
  rcases hab with hab | ⟨hle, hab⟩
  · rcases hba with hba | ⟨hge, -⟩
    · exact absurd ((hless.asymm hab).symm.trans hba) Bool.false_ne_true
    · exact absurd (hge.symm.trans hab) Bool.false_ne_true
  · rcases hba with hba | ⟨-, hba⟩
    · exact absurd (hle.symm.trans hba) Bool.false_ne_true
    · exact absurd hba (hstood a b hab)

/-- It is enough that "smaller" is a weak order of such elements as are in the list. -/
theorem sort_stable_of_forall {p : α → Prop}
    (hless : IsWeak fun a b : { x // p x } => less a.val b.val) {xs : List α}
    (hp : ∀ x ∈ xs, p x) (h : xs.Pairwise stood) :
    (sort less xs).Pairwise (Before less stood) := by
  rw [← List.attachWith_map_subtype_val hp] at h ⊢
  rw [sort_map fun _ _ => rfl, List.pairwise_map]
  exact sort_stable hless (List.pairwise_map.1 h)

theorem sort_ascending_of_forall {p : α → Prop}
    (hless : IsWeak fun a b : { x // p x } => less a.val b.val) {xs : List α}
    (hp : ∀ x ∈ xs, p x) : Ascending less (sort less xs) := by
  rw [← List.attachWith_map_subtype_val hp, sort_map fun _ _ => rfl]
  exact List.pairwise_map.2 (sort_ascending hless _)

end Latency.Order
