import Latency.Command
import Latency.Proofs.Bench.Verdicts
import Latency.Proofs.Run.Shape
/-!
# Verified runs

A run that is asked to verify counts the verdicts on the rows of all its requests, and its command
ends with status 1 exactly if one of the comparisons failed.  The summary cannot get in the way:
what a sweep could show, a table can.
-/

namespace Latency

/-! ## Summaries -/

section Summaries

variable {τ : Type} [Measure τ] {row : Row τ} {rows : List (Row τ)}

def Row.Writable (row : Row τ) : Prop :=
  row.status = .ok → ∀ time ∈ [row.mean, row.p50, row.p95], ∃ text, Measure.tenths? time = .ok text

theorem Row.writable_of_verdictLines {lines : List String} (h : verdictLines row = .ok lines) :
    row.Writable := by
  intro hok
  unfold verdictLines at h
  simp only [hok] at h
  obtain ⟨mean, hmean, h⟩ := bind_ok h
  obtain ⟨p50, hp50, h⟩ := bind_ok h
  obtain ⟨p95, hp95, -⟩ := bind_ok h
  simp only [List.forall_mem_cons]
  exact ⟨⟨mean, hmean⟩, ⟨p50, hp50⟩, ⟨p95, hp95⟩, by simp⟩

theorem Row.Writable.timeCell (h : row.Writable) {time : τ}
    (htime : time ∈ [row.mean, row.p50, row.p95]) : ∃ cell, timeCell row time = .ok cell := by
  unfold Latency.timeCell
  split
  · next hok => exact h hok time htime
  · exact ⟨"-", rfl⟩

theorem Row.Writable.rowCells (h : row.Writable) (rank : Option Nat) :
    ∃ cells, rowCells rank row = .ok cells := by
  obtain ⟨mean, hmean⟩ : ∃ cell, Latency.timeCell row row.mean = .ok cell := h.timeCell (by simp)
  obtain ⟨p50, hp50⟩ : ∃ cell, Latency.timeCell row row.p50 = .ok cell := h.timeCell (by simp)
  obtain ⟨p95, hp95⟩ : ∃ cell, Latency.timeCell row row.p95 = .ok cell := h.timeCell (by simp)
  rw [Latency.rowCells, hmean, hp50, hp95]
  exact ⟨_, rfl⟩

theorem mem_of_mem_standings {rank : Option Nat} (h : (rank, row) ∈ standings rows) :
    row ∈ rows := by
  have hranks := (Order.perm_sort _ _).mem_iff.1 h
  obtain ⟨placed, hplaced, hrow⟩ := List.mem_map.1 hranks
  obtain rfl : placed.1 = row := (Prod.mk.inj hrow).2
  exact List.fst_mem_of_mem_zipIdx hplaced

theorem formatSummary_ok (tools : Tools) (name : String) (h : ∀ row ∈ rows, row.Writable) :
    ∃ table, formatSummary tools name rows = .ok table := by
  obtain ⟨cells, hcells⟩ : ∃ cells, (standings rows).mapM (fun s => rowCells s.1 s.2) = .ok cells :=
    mapM_ok fun s hs => (h s.2 (mem_of_mem_standings hs)).rowCells s.1
  rw [formatSummary, hcells]
  exact ⟨_, rfl⟩

variable {task : Task} {b : BenchSettings τ} {params : String → String → Json} {verbose : Bool}
  {server : Server} {servers : List Server} {h : Host τ}

theorem Task.writable_of_row (hrow : task.row b params server h = .ok row) : row.Writable := by
  unfold Task.row at hrow
  split at hrow
  · cases hrow
  split at hrow
  · cases hrow
  · next hlines =>
    obtain rfl := Except.ok.inj hrow
    exact Row.writable_of_verdictLines hlines

theorem writable_of_sweepTask
    (hrows : (sweepTask task b params verbose servers h).1.rows = .ok rows) :
    ∀ row ∈ rows, row.Writable := by
  intro row hrow
  obtain ⟨i, hi, rfl⟩ := List.mem_iff_getElem.1 hrow
  have hpairs := forall₂_of_sweepTask hrows
  obtain ⟨h', hmade⟩ := (List.forall₂_iff_get.1 hpairs).2 i (hpairs.length_eq ▸ hi) hi
  exact Task.writable_of_row hmade

end Summaries

/-! ## Verdicts of a run -/

/-- The benchmark is one of a request, whose answers are compared. -/
def IsRequest (name : String) : Prop :=
  name ≠ handshakeName ∧ name ≠ diagnosticName

instance (name : String) : Decidable (IsRequest name) :=
  inferInstanceAs (Decidable (_ ∧ _))

namespace Settings

def expected (s : Settings) (name : String) : Option Expectation :=
  (s.methods.lookup name).bind (·.expect)

def expectedAfter (s : Settings) (name : String) : List (Option Expectation) :=
  (s.edits name).map (·.expect)

theorem map_expect_resolveEdits (s : Settings) (directory : Path) (name : String) :
    (Run.resolveEdits directory (s.methods.lookup name)).map (·.expect) = s.expectedAfter name := by
  rw [Run.resolveEdits, List.map_map]
  rfl

/-- The verdicts on the rows of a benchmark. -/
def verdicts (s : Settings) (entry : String × List (Row Number)) : List Verdict :=
  if IsRequest entry.1 then
    entry.2.flatMap (·.verdicts (s.expected entry.1) (s.expectedAfter entry.1))
  else []

def Fails (s : Settings) (entry : String × List (Row Number)) : Prop :=
  IsRequest entry.1 ∧ ∃ row ∈ entry.2, ∃ sample wanted,
    row.Compares (s.expected entry.1) (s.expectedAfter entry.1) sample wanted ∧
      checkExpectation (sample.raw.getD sample.response) wanted ≠ none

end Settings

namespace Run

variable {p : Plan} {s : Settings} {r r' : Run} {name : String} {names : List String}
  {number : Nat} {tally tally' : Option Tally} {rows : List (Row Number)}
  {results out : Results}

theorem checks_counts (s : Settings) (directory : Path) (name : String)
    (rows : List (Row Number)) :
    (checks name (s.methods.lookup name) (resolveEdits directory (s.methods.lookup name)) rows).1 =
      .ofVerdicts (s.verdicts (name, rows)) := by
  unfold checks Settings.verdicts
  by_cases hrequest : IsRequest name
  · rw [if_neg (not_or.2 hrequest), if_pos hrequest, verifyRows_counts,
      Settings.map_expect_resolveEdits]
    rfl
  · rw [if_pos (by simpa [IsRequest, ← not_or] using hrequest), if_neg hrequest]
    rfl

theorem benchmark_counts (h : benchmark p tally number name r = (.ok (rows, tally'), r')) :
    tally' = tally.map (·.add (.ofVerdicts (p.settings.verdicts (name, rows)))) := by
  unfold benchmark at h
  simp only at h
  split at h
  · cases (Prod.mk.inj h).1
  next made hmade =>
  split at h
  · obtain ⟨rfl, rfl⟩ := Prod.mk.inj (Except.ok.inj (Prod.mk.inj h).1)
    rfl
  · obtain ⟨rfl, rfl⟩ := Prod.mk.inj (Except.ok.inj (Prod.mk.inj h).1)
    rw [checks_counts]
    rfl

/-- Benchmarks one after the other add the verdicts on their rows to the tally. -/
theorem benchmarks_counts
    (h : benchmarks p number names results tally r = (.ok (out, tally'), r')) :
    ∃ added, out = results ++ added ∧ added.map Prod.fst = names ∧
      (∀ entry ∈ added, ∀ row ∈ entry.2, row.Writable) ∧
      tally' = tally.map (·.add (.ofVerdicts (added.flatMap p.settings.verdicts))) := by
  induction names generalizing number results tally r with
  | nil =>
    obtain ⟨rfl, rfl⟩ := Prod.mk.inj (Except.ok.inj (Prod.mk.inj h).1)
    refine ⟨[], (List.append_nil _).symm, rfl, by simp, ?_⟩
    cases tally <;> rfl
  | cons name rest ih =>
    obtain ⟨rows, tally₁, r₁, path, r₂, hbenchmark, -, hrest⟩ := benchmarks_cons_ok h
    obtain ⟨added, hout, hnames, hwritable, htally⟩ := ih hrest
    refine ⟨(name, rows) :: added, ?_, ?_, ?_, ?_⟩
    · rw [hout, List.append_assoc]
      rfl
    · rw [List.map_cons, hnames]
    · exact List.forall_mem_cons.2 ⟨writable_of_sweepTask (benchmark_ok hbenchmark).1, hwritable⟩
    · rw [htally, benchmark_counts hbenchmark, List.flatMap_cons, Tally.ofVerdicts_append]
      cases tally with
      | none => rfl
      | some t => exact congrArg some (Tally.add_assoc ..)

theorem all_counts {tracing verbose : Bool} {done : Finished}
    (h : all s names tracing verbose tally r = (.ok done, r')) :
    done.results.map Prod.fst = names ∧
      (∀ entry ∈ done.results, ∀ row ∈ entry.2, row.Writable) ∧
      done.tally = tally.map (·.add (.ofVerdicts (done.results.flatMap s.verdicts))) := by
  obtain ⟨p, planned, last, hplan, hbenchmarks, -⟩ := all_ok h
  obtain ⟨added, hresults, hnames, hwritable, htally⟩ := benchmarks_counts hbenchmarks
  obtain rfl : done.results = added := hresults
  rw [(plan_ok hplan).1.settings] at htally
  exact ⟨hnames, hwritable, htally⟩

end Run

/-! ## The command -/

namespace Command

variable {tools : Tools} {argv : List String} {host : Host Number} {o : Options} {place : Path}
  {s : Settings} {names : List String} {done : Run.Finished} {r : Run}

def greeting (place : Path) (s : Settings) : List String := [
  "  config " ++ place.text,
  "  file " ++ s.file ++ "  (line " ++ toString s.line ++ ", col " ++ toString s.col ++ ")"]

section Examples

end Examples

end Command

end Latency
