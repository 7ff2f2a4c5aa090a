/-!
# Stable sorting

The longest run in front that is in order already, or strictly in reverse order, is taken as it is;
each further element is put in by halving the sorted part, behind those that it is not smaller than.
Equal elements keep their order. Only "smaller" is asked, so elements that cannot be compared have a
definite place too. A sorted list is a permutation of the list it was made from.
-/

namespace Latency.Order

variable {α : Type} (less : α → α → Bool)

/-- How many elements follow one another, each from the one before it by a relation. -/
def runLength (related : α → α → Bool) (x : α) : List α → Nat
  | [] => 0
  | y :: ys => if related x y then runLength related y ys + 1 else 0

def firstRun : List α → List α × List α
  | x :: y :: rest =>
    if less y x then
      let n := runLength (fun a b => less b a) x (y :: rest) + 1
      (((x :: y :: rest).take n).reverse, (x :: y :: rest).drop n)
    else
      let n := runLength (fun a b => !less b a) x (y :: rest) + 1
      ((x :: y :: rest).take n, (x :: y :: rest).drop n)
  | xs => (xs, [])

/-- Where an element goes among sorted ones, found by halving what is between two places. -/
def place (x : α) (ys : Array α) (low high : Nat) : Nat :=
  if _h : low < high then
    let middle := low + (high - low) / 2
    match ys[middle]? with
    | none => low
    | some y => if less x y then place x ys low middle else place x ys (middle + 1) high
  else low
termination_by high - low
decreasing_by all_goals omega

def insert (x : α) (ys : List α) : List α :=
  let n := place less x ys.toArray 0 ys.length
  ys.take n ++ x :: ys.drop n

def sort (xs : List α) : List α :=
  let (run, rest) := firstRun less xs
  rest.foldl (fun acc x => insert less x acc) run

theorem perm_insert (x : α) (ys : List α) : (insert less x ys).Perm (x :: ys) := by
  unfold insert
  refine List.perm_middle.trans ?_
  rw [List.take_append_drop]

theorem perm_firstRun (xs : List α) : ((firstRun less xs).1 ++ (firstRun less xs).2).Perm xs := by
  unfold firstRun
  split
  · split
    · exact ((List.reverse_perm _).append_right _).trans (by rw [List.take_append_drop])
    · rw [List.take_append_drop]
  · simp

theorem perm_sort (xs : List α) : (sort less xs).Perm xs := by
  have fold (acc ys : List α) :
      (ys.foldl (fun acc x => insert less x acc) acc).Perm (acc ++ ys) := by
    induction ys generalizing acc with
    | nil => simp
    | cons y ys ih =>
      refine (ih _).trans ?_
      refine ((perm_insert less y acc).append_right ys).trans ?_
      exact List.perm_middle.symm
  exact (fold _ _).trans (perm_firstRun less xs)

end Latency.Order
