import Latency.Proofs.Lists
import Latency.Proofs.Number.Value
import Latency.Proofs.Order.Stable
import Latency.Proofs.Run.Verification
/-!
# Ranks and the summary

The rows that answered something are ranked by their means, equal ones as they come.  A summary
sorts all rows once more, by their ranks; since both sorts are stable, the two orders agree
(`standings_eq`), and every row has its place in the table (`summary_ranks`).
-/

namespace Latency

/-! ## Ranked rows -/

section Ranks

variable {τ : Type} [Measure τ]

def rankedRows (rows : List (Row τ)) : List (Row τ × Nat) :=
  Order.sort (fun a b => a.1.faster b.1) (rows.zipIdx.filter fun r => r.1.isRanked)

def rankAt (rows : List (Row τ)) (placed : Row τ × Nat) : Option Nat :=
  ((rankedRows rows).findIdx? fun r => r.2 == placed.2).map (· + 1)

theorem ranks_eq_map_rankAt (rows : List (Row τ)) :
    ranks rows = rows.zipIdx.map fun placed => (rankAt rows placed, placed.1) :=
  rfl

theorem perm_rankedRows (rows : List (Row τ)) :
    (rankedRows rows).Perm (rows.zipIdx.filter fun r => r.1.isRanked) :=
  Order.perm_sort _ _

theorem map_fst_rankedRows (rows : List (Row τ)) :
    (rankedRows rows).map Prod.fst = rankRows rows := by
  rw [rankRows, ← map_fst_filter_zipIdx]
  exact (Order.sort_map (fun _ _ => rfl) _).symm

theorem mem_rankedRows {rows : List (Row τ)} {placed : Row τ × Nat} :
    placed ∈ rankedRows rows ↔ placed ∈ rows.zipIdx ∧ placed.1.isRanked = true := by
  rw [(perm_rankedRows rows).mem_iff, List.mem_filter]

theorem nodup_places_rankedRows (rows : List (Row τ)) :
    ((rankedRows rows).map Prod.snd).Nodup := by
  refine ((perm_rankedRows rows).map Prod.snd).nodup_iff.2 (List.pairwise_map.2 ?_)
  exact ((pairwise_zipIdx rows).filter _).imp Nat.ne_of_lt

theorem rankAt_getElem (rows : List (Row τ)) {i : Nat} (h : i < (rankedRows rows).length) :
    rankAt rows (rankedRows rows)[i] = some (i + 1) := by
  have hfound : ((rankedRows rows).findIdx? fun r => r.2 == (rankedRows rows)[i].2) = some i := by
    refine List.findIdx?_eq_some_iff_getElem.2 ⟨h, beq_self_eq_true _, fun j hj hsame => ?_⟩
    have hlast : i < ((rankedRows rows).map Prod.snd).length := by rwa [List.length_map]
    have hfront : j < ((rankedRows rows).map Prod.snd).length := hj.trans hlast
    have hplaces : ((rankedRows rows).map Prod.snd)[j] = ((rankedRows rows).map Prod.snd)[i] := by
      simpa using hsame
    exact hj.ne ((nodup_places_rankedRows rows).getElem_inj_iff.1 hplaces)
  rw [rankAt, hfound]
  rfl

theorem rankAt_of_not_isRanked {rows : List (Row τ)} {placed : Row τ × Nat}
    (hmem : placed ∈ rows.zipIdx) (h : placed.1.isRanked = false) : rankAt rows placed = none := by
  have hnone : ((rankedRows rows).findIdx? fun r => r.2 == placed.2) = none := by
    refine List.findIdx?_eq_none_iff.2 fun r hr => beq_false_of_ne fun hsame => ?_
    obtain ⟨hr, hranked⟩ := mem_rankedRows.1 hr
    rw [eq_of_place_eq hr hmem hsame, h] at hranked
    cases hranked
  rw [rankAt, hnone]
  rfl

theorem isWeak_rankBefore : Order.IsWeak rankBefore where
  asymm {a b} h := by
    cases a <;> cases b <;> simp [rankBefore] at h ⊢
    omega
  trans {a b c} hab hbc := by
    cases a <;> cases b <;> cases c <;> simp [rankBefore] at hab hbc ⊢
    omega

def standsBefore (rows : List (Row τ)) (a b : Row τ × Nat) : Bool :=
  rankBefore (rankAt rows a) (rankAt rows b)

/-- The rows with their places: first the ranked ones in the order of their ranks, then the others
as they come. -/
def placedStandings (rows : List (Row τ)) : List (Row τ × Nat) :=
  rankedRows rows ++ rows.zipIdx.filter fun r => !r.1.isRanked

theorem perm_placedStandings (rows : List (Row τ)) :
    (placedStandings rows).Perm rows.zipIdx :=
  ((perm_rankedRows rows).append_right _).trans (List.filter_append_perm _ _)

theorem pairwise_placedStandings (rows : List (Row τ)) :
    (placedStandings rows).Pairwise (Order.Before (standsBefore rows) fun a b => a.2 < b.2) := by
  have hunranked {placed : Row τ × Nat}
      (h : placed ∈ rows.zipIdx.filter fun r => !r.1.isRanked) : rankAt rows placed = none := by
    obtain ⟨hmem, hnot⟩ := List.mem_filter.1 h
    exact rankAt_of_not_isRanked hmem (by simpa using hnot)
  refine List.pairwise_append.2 ⟨List.pairwise_iff_getElem.2 fun i j hi hj hij => .inl ?_, ?_, ?_⟩
  · rw [standsBefore, rankAt_getElem rows hi, rankAt_getElem rows hj]
    exact decide_eq_true (Nat.succ_lt_succ hij)
  · refine ((pairwise_zipIdx rows).filter _).imp_of_mem fun ha hb hplaces => .inr ⟨?_, hplaces⟩
    rw [standsBefore, hunranked ha, hunranked hb]
    rfl
  · intro a ha b hb
    obtain ⟨i, hi, rfl⟩ := List.mem_iff_getElem.1 ha
    refine .inl ?_
    rw [standsBefore, rankAt_getElem rows hi, hunranked hb]
    rfl

/-- The standings are the ranked rows, counted from one, and behind them the others as they come. -/
theorem standings_eq (rows : List (Row τ)) : standings rows =
    (rankRows rows).zipIdx.map (fun r => (some (r.2 + 1), r.1)) ++
      (rows.filter fun r => !r.isRanked).map fun r => (none, r) := by
  have hsorted : placedStandings rows =
      Order.sort (standsBefore rows) rows.zipIdx :=
    Order.eq_sort_of_before (isWeak_rankBefore.comap (rankAt rows)) (fun _ _ => Nat.lt_asymm)
      (pairwise_zipIdx rows) (perm_placedStandings rows) (pairwise_placedStandings rows)
  have hstandings : standings rows =
      (placedStandings rows).map fun placed => (rankAt rows placed, placed.1) := by
    rw [hsorted, standings, ranks_eq_map_rankAt]
    exact Order.sort_map (fun _ _ => rfl) _
  have hranked : (rankedRows rows).map (fun placed => (rankAt rows placed, placed.1)) =
      (rankRows rows).zipIdx.map fun r => (some (r.2 + 1), r.1) := by
    rw [← map_fst_rankedRows]
    refine List.ext_getElem (by simp) fun i hi _ => ?_
    rw [List.length_map] at hi
    simp [rankAt_getElem rows hi]
  have hunranked : (rows.zipIdx.filter fun r => !r.1.isRanked).map
        (fun placed => (rankAt rows placed, placed.1)) =
      (rows.filter fun r => !r.isRanked).map fun r => (none, r) := by
    rw [← map_fst_filter_zipIdx (fun r => !r.isRanked) rows, List.map_map]
    refine List.map_congr_left fun placed hplaced => ?_
    obtain ⟨hmem, hnot⟩ := List.mem_filter.1 hplaced
    exact congrArg (·, placed.1) (rankAt_of_not_isRanked hmem (by simpa using hnot))
  rw [hstandings, placedStandings, List.map_append, hranked, hunranked]

theorem perm_rankRows_append (rows : List (Row τ)) :
    (rankRows rows ++ rows.filter fun r => !r.isRanked).Perm rows :=
  ((Order.perm_sort _ _).append_right _).trans (List.filter_append_perm _ _)

theorem exists_mem_standings {rows : List (Row τ)} {row : Row τ} (h : row ∈ rows) :
    ∃ rank, (rank, row) ∈ standings rows := by
  obtain ⟨place, hplaced⟩ := List.mem_iff_getElem?.1 h
  exact ⟨_, (Order.perm_sort _ _).mem_iff.2
    (List.mem_map.2 ⟨(row, place), List.mem_zipIdx_iff_getElem?.2 hplaced, rfl⟩)⟩

end Ranks

/-! ## The summary -/

section Summary

variable {τ : Type} [Measure τ]

/-- The cells of a row in the summary: its rank, its label, its status and its times. -/
structure Tabulates (rank : Option Nat) (row : Row τ) (cells : List String) : Prop where
  width : cells.length = 6
  number : cells[0]? = some ((rank.map toString).getD "")
  label : cells[1]? = some row.label
  empty : row.status = .ok → rank = none → cells[2]? = some "ok (empty)"
  status : ¬ (row.status = .ok ∧ rank = none) → cells[2]? = some row.status.text
  times : row.status = .ok →
    [row.mean, row.p50, row.p95].mapM Measure.tenths? = .ok (cells.drop 3)
  noTimes : row.status ≠ .ok → cells.drop 3 = ["-", "-", "-"]

theorem tabulates_of_rowCells {rank : Option Nat} {row : Row τ} {cells : List String}
    (h : rowCells rank row = .ok cells) : Tabulates rank row cells := by
  obtain ⟨mean, hmean, h⟩ := bind_ok h
  obtain ⟨p50, hp50, h⟩ := bind_ok h
  obtain ⟨p95, hp95, h⟩ := bind_ok h
  obtain rfl := Except.ok.inj h
  unfold timeCell at hmean hp50 hp95
  refine ⟨rfl, rfl, rfl, fun hok hrank => ?_, fun hnot => ?_, fun hok => ?_, fun hne => ?_⟩
  · exact congrArg some (if_pos ⟨hok, hrank⟩)
  · exact congrArg some (if_neg hnot)
  · rw [if_pos hok] at hmean hp50 hp95
    simp only [List.mapM_cons, hmean, hp50, hp95]
    rfl
  · rw [if_neg hne] at hmean hp50 hp95
    rw [← Except.ok.inj hmean, ← Except.ok.inj hp50, ← Except.ok.inj hp95]
    rfl

theorem Row.writable_of_rowCells {rank : Option Nat} {row : Row τ} {cells : List String}
    (h : rowCells rank row = .ok cells) : row.Writable := by
  intro hok
  obtain ⟨mean, hmean, h⟩ := bind_ok h
  obtain ⟨p50, hp50, h⟩ := bind_ok h
  obtain ⟨p95, hp95, -⟩ := bind_ok h
  unfold timeCell at hmean hp50 hp95
  rw [if_pos hok] at hmean hp50 hp95
  simp only [List.forall_mem_cons]
  exact ⟨⟨mean, hmean⟩, ⟨p50, hp50⟩, ⟨p95, hp95⟩, by simp⟩

def summaryHeaders : List String :=
  ["Rank", "Server", "Status", "Mean (ms)", "p50 (ms)", "p95 (ms)"]

theorem formatSummary_eq_ok {tools : Tools} {name text : String} {rows : List (Row τ)}
    (h : formatSummary tools name rows = .ok text) : ∃ cells,
      (standings rows).mapM (fun s => rowCells s.1 s.2) = .ok cells ∧
      text = name ++ "\n" ++ tools.drawTable summaryHeaders cells := by
  obtain ⟨cells, hcells, h⟩ := bind_ok h
  exact ⟨cells, hcells, (Except.ok.inj h).symm⟩

/-- There is a summary exactly if all times of good rows can be written. -/
theorem exists_formatSummary_iff (tools : Tools) (name : String) (rows : List (Row τ)) :
    (∃ text, formatSummary tools name rows = .ok text) ↔ ∀ row ∈ rows, row.Writable := by
  refine ⟨fun ⟨text, h⟩ row hrow => ?_, formatSummary_ok tools name⟩
  obtain ⟨cells, hcells, -⟩ := formatSummary_eq_ok h
  obtain ⟨rank, hstands⟩ := exists_mem_standings hrow
  obtain ⟨_, -, hshown⟩ := exists_of_forall₂ (forall₂_of_mapM_ok hcells) hstands
  exact Row.writable_of_rowCells hshown

end Summary

/-- One row at a place stands before another: its mean is smaller, or equal and the row in front. -/
def Precedes (a b : Row Number × Nat) : Prop :=
  a.1.mean.less b.1.mean = true ∨ a.1.mean.equals b.1.mean = true ∧ a.2 < b.2

/-- Where the means are numbers, the ranked rows are in the order of their means, and of their
places where these are equal. -/
theorem pairwise_rankedRows {rows : List (Row Number)}
    (hmeans : ∀ row ∈ rows, row.isRanked = true → row.mean.isNaN = false) :
    (rankedRows rows).Pairwise Precedes := by
  have hnumber : ∀ r ∈ rows.zipIdx.filter fun r => r.1.isRanked, r.1.mean.isNaN = false := by
    intro r hr
    obtain ⟨hmem, hranked⟩ := List.mem_filter.1 hr
    exact hmeans r.1 (List.fst_mem_of_mem_zipIdx hmem) hranked
  have hweak : Order.IsWeak fun a b : { r : Row Number × Nat // r.1.mean.isNaN = false } =>
      a.val.1.faster b.val.1 :=
    Number.isWeak_less.comap fun r : { r : Row Number × Nat // r.1.mean.isNaN = false } =>
      ⟨r.val.1.mean, r.property⟩
  have hsorted : (rankedRows rows).Pairwise
      (Order.Before (fun a b => a.1.faster b.1) fun a b => a.2 < b.2) :=
    Order.sort_stable_of_forall hweak hnumber ((pairwise_zipIdx rows).filter _)
  refine hsorted.imp_of_mem fun {a b} ha hb hbefore => ?_
  obtain hless | ⟨hle, hplaces⟩ := hbefore
  · exact .inl hless
  · have hamong {r : Row Number × Nat} (hr : r ∈ rankedRows rows) : r.1.mean.isNaN = false :=
      hnumber r ((perm_rankedRows rows).mem_iff.1 hr)
    exact (Number.less_or_equals (hamong ha) (hamong hb) hle).imp_right fun h => ⟨h, hplaces⟩

/-- **Ranks and the summary.**  Where the means of the rows that answered something are numbers,
these rows are ranked: each once, in the order of their means, and of their places in the list where
means are equal.  The summary of a benchmark has every row once: first the ranked ones, numbered
from one in this order, then the others as they come, without a number; a good row among these is
shown as empty, and a row that is not good has no times.  There is a summary exactly if all times of
good rows can be written. -/
theorem summary_ranks (tools : Tools) (name : String) (rows : List (Row Number))
    (hmeans : ∀ row ∈ rows, row.isRanked = true → row.mean.isNaN = false) :
    (∃ ranked : List (Row Number × Nat), ranked.map Prod.fst = rankRows rows ∧
      ranked.Perm (rows.zipIdx.filter fun r =>
        decide (r.1.status = .ok) && isMeaningful r.1.summary) ∧
      ranked.Pairwise Precedes) ∧
    (rankRows rows ++ rows.filter fun r => !r.isRanked).Perm rows ∧
    ((∃ text, formatSummary tools name rows = .ok text) ↔ ∀ row ∈ rows, row.Writable) ∧
    ∀ text, formatSummary tools name rows = .ok text → ∃ cells,
      text = name ++ "\n" ++ tools.drawTable summaryHeaders cells ∧
      List.Forall₂ (fun placed cells => Tabulates placed.1 placed.2 cells)
        ((rankRows rows).zipIdx.map (fun r => (some (r.2 + 1), r.1)) ++
          (rows.filter fun r => !r.isRanked).map fun r => (none, r)) cells := by
  refine ⟨⟨rankedRows rows, map_fst_rankedRows rows, perm_rankedRows rows,
    pairwise_rankedRows hmeans⟩, perm_rankRows_append rows, exists_formatSummary_iff tools name rows,
    fun text h => ?_⟩
  obtain ⟨cells, hcells, htext⟩ := formatSummary_eq_ok h
  rw [← standings_eq]
  exact ⟨cells, htext, (forall₂_of_mapM_ok hcells).imp fun _ _ => tabulates_of_rowCells⟩

section Example

def timedRow (label : String) (mean : Number) (summary : Json) : Row Number where
  label := label
  status := .ok
  p50 := mean
  p95 := mean
  mean := mean
  summary := summary

def summaryRows : List (Row Number) := [
  timedRow "first" (.float 2.0) (.str "answer"),
  { timedRow "failed" (.float 0.0) .null with status := .fail, error := "no server" },
  timedRow "empty" (.float 1.0) .null,
  timedRow "second" (.int 2) (.str "answer"),
  timedRow "fast" (.float 1.5) (.str "answer")]

theorem isNaN_summaryRows :
    ∀ row ∈ summaryRows, row.isRanked = true → row.mean.isNaN = false := by
  decide +kernel

theorem writable_summaryRows : ∀ row ∈ summaryRows, row.Writable := by
  have hchecked : (summaryRows.all fun row => [row.mean, row.p50, row.p95].all fun time =>
      (Measure.tenths? time).isOk) = true := by
    decide +kernel
  intro row hrow _ time htime
  have hok := List.all_eq_true.1 (List.all_eq_true.1 hchecked row hrow) time htime
  cases htenths : Measure.tenths? time with
  | ok text => exact ⟨text, rfl⟩
  | error e =>
    rw [htenths] at hok
    cases hok

theorem columns_of_tabulates {placed : List (Option Nat × Row Number)} {cells : List (List String)}
    (h : List.Forall₂ (fun placed cells => Tabulates placed.1 placed.2 cells) placed cells) :
    cells.map (fun row => (row[0]?, row[1]?)) =
      (placed.map fun s => (s.1, s.2.label)).map fun s =>
        (some ((s.1.map toString).getD ""), some s.2) := by
  induction h with
  | nil => rfl
  | cons hfirst _ ih =>
    rw [List.map_cons, ih, hfirst.number, hfirst.label]
    rfl

theorem standings_summaryRows :
    (standings summaryRows).map (fun s => (s.1, s.2.label)) =
      [(some 1, "fast"), (some 2, "first"), (some 3, "second"), (none, "failed"),
        (none, "empty")] := by
  decide +kernel

/-- Equally fast rows keep their order, and rows without a rank are behind all others. -/
theorem summary_ranks_ties : ∃ text cells, formatSummary .usual "hover" summaryRows = .ok text ∧
    text = "hover" ++ "\n" ++ Tools.usual.drawTable summaryHeaders cells ∧
    cells.map (fun row => (row[0]?, row[1]?)) =
      [(some "1", some "fast"), (some "2", some "first"), (some "3", some "second"),
        (some "", some "failed"), (some "", some "empty")] := by
  obtain ⟨-, -, hsummary, htable⟩ := summary_ranks .usual "hover" summaryRows isNaN_summaryRows
  obtain ⟨text, htext⟩ := hsummary.2 writable_summaryRows
  obtain ⟨cells, hrendered, htabulated⟩ := htable text htext
  refine ⟨text, cells, htext, hrendered, ?_⟩
  rw [← standings_eq] at htabulated
  rw [columns_of_tabulates htabulated, standings_summaryRows]
  decide +kernel

end Example

end Latency
