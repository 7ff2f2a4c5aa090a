import Latency.Tally
/-!
# Verdicts

A good row gets a verdict on each iteration that has an edit, or one verdict if there are no edits.
The tally of a benchmark is the counts of these verdicts.
-/

namespace Latency

/-- What comes of comparing an answer with what is expected of it, if anything is. -/
inductive Verdict where
  | passed
  | failed
  | skipped
deriving Repr, DecidableEq

/-! ## Counting -/

namespace Tally

def ofVerdicts (vs : List Verdict) : Tally :=
  ⟨vs.count .passed, vs.count .failed, vs.count .skipped⟩

theorem ofVerdicts_append (vs ws : List Verdict) :
    ofVerdicts (vs ++ ws) = (ofVerdicts vs).add (ofVerdicts ws) := by
  simp only [ofVerdicts, add, List.count_append]

@[simp] theorem empty_add (t : Tally) : add {} t = t := by
  simp only [add, Nat.zero_add]

theorem add_assoc (a b c : Tally) : (a.add b).add c = a.add (b.add c) := by
  simp only [add, Nat.add_assoc]

end Tally

theorem joinVerdicts_counts {α : Type} {f : α → Tally × List String} {g : α → List Verdict}
    (hcounts : ∀ a, (f a).1 = .ofVerdicts (g a)) (xs : List α) :
    (joinVerdicts (xs.map f)).1 = .ofVerdicts (xs.flatMap g) := by
  have hfold (acc : Tally × List String) :
      ((xs.map f).foldl (fun acc v => (acc.1.add v.1, acc.2 ++ v.2)) acc).1 =
        acc.1.add (.ofVerdicts (xs.flatMap g)) := by
    induction xs generalizing acc with
    | nil => rfl
    | cons x rest ih =>
      rw [List.map_cons, List.foldl_cons, ih, List.flatMap_cons, Tally.ofVerdicts_append,
        hcounts, Tally.add_assoc]
  rw [joinVerdicts, hfold, Tally.empty_add]

/-! ## Rows -/

section Rows

variable {τ : Type} {expect : Option Expectation} {owns : List (Option Expectation)} {row : Row τ}

/-- The verdict on a sample is one on its response in full, and not on what is reported of it. -/
def Sample.verdict (s : Sample τ) : Option Expectation → Verdict
  | none => .skipped
  | some expect =>
    if checkExpectation (s.raw.getD s.response) expect = none then .passed else .failed

theorem verifySample_counts (subject : String) (s : Sample τ) (expect : Option Expectation) :
    (verifySample subject s expect).1 = .ofVerdicts [s.verdict expect] := by
  cases expect with
  | none => rfl
  | some expect =>
    rw [verifySample, Sample.verdict, Sample.answer]
    cases checkExpectation (s.raw.getD s.response) expect <;> rfl

/-- The verdicts on a row, where `owns` is what is expected after each edit: with edits one for each
iteration that has an edit, and without edits one for the first iteration. -/
def Row.verdicts (expect : Option Expectation) (owns : List (Option Expectation)) (row : Row τ) :
    List Verdict :=
  if row.status ≠ .ok then []
  else if owns = [] then
    if expect = none then [.skipped] else (row.iterations.take 1).map (·.verdict expect)
  else List.zipWith (fun sample own => sample.verdict (own <|> expect)) row.iterations owns

theorem verifyRow_counts (expect : Option Expectation) (edits : List ResolvedEdit) (row : Row τ) :
    (verifyRow expect edits row).1 =
      .ofVerdicts (row.verdicts expect (edits.map (·.expect))) := by
  unfold verifyRow Row.verdicts
  split
  · rfl
  split
  · next hedits =>
    obtain rfl := List.isEmpty_iff.1 hedits
    rw [if_pos List.map_nil]
    split
    · rfl
    · rw [if_neg nofun]
      cases row.iterations with
      | nil => rfl
      | cons sample rest => exact verifySample_counts row.label sample _
  · next hedits =>
    rw [if_neg fun hnil => hedits (List.isEmpty_iff.2 (List.map_eq_nil_iff.1 hnil))]
    -- The numbers are for the lines that are shown.
    have hverdicts := joinVerdicts_counts (fun x : (Sample τ × ResolvedEdit) × Nat =>
      verifySample_counts ("[" ++ toString (x.2 + 1) ++ "] " ++ row.label ++ " " ++ x.1.2.path.name)
        x.1.1 (x.1.2.expect.orElse fun _ => expect)) (row.iterations.zip edits).zipIdx
    refine hverdicts.trans (congrArg Tally.ofVerdicts ?_)
    rw [← List.map_eq_flatMap, ← Function.comp_def
      (fun x : Sample τ × ResolvedEdit => x.1.verdict (x.2.expect.orElse fun _ => expect)) Prod.fst,
      ← List.map_map, List.zipIdx_map_fst, List.map_zip_eq_zipWith,
      List.zipWith_map_right]
    rfl

theorem verifyRows_counts (expect : Option Expectation) (edits : List ResolvedEdit)
    (rows : List (Row τ)) :
    (verifyRows expect edits rows).1 =
      .ofVerdicts (rows.flatMap (·.verdicts expect (edits.map (·.expect)))) :=
  joinVerdicts_counts (verifyRow_counts expect edits) rows

/-! ## Failures -/

/-- A good row has a sample that is compared with an expectation: without edits the first one with
that of the method, and with edits each one with that of its edit, or else with that of the
method. -/
inductive Row.Compares (expect : Option Expectation) (owns : List (Option Expectation))
    (row : Row τ) : Sample τ → Expectation → Prop where
  | first {sample : Sample τ} {wanted : Expectation} (status : row.status = .ok)
      (plain : owns = []) (sampled : row.iterations.head? = some sample)
      (expected : expect = some wanted) : Compares expect owns row sample wanted
  | edited {i : Nat} {sample : Sample τ} {own : Option Expectation} {wanted : Expectation}
      (status : row.status = .ok) (sampled : row.iterations[i]? = some sample)
      (edited : owns[i]? = some own) (expected : (own <|> expect) = some wanted) :
      Compares expect owns row sample wanted

end Rows

end Latency
