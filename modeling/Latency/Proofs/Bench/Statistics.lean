import Mathlib.Algebra.Order.BigOperators.Group.List
import Mathlib.Data.Rat.Floor
import Mathlib.Tactic.Linarith
import Mathlib.Tactic.FieldSimp
import Latency.Proofs.Number.Hundredths
import Latency.Proofs.Number.Percentile
import Latency.Proofs.Order.Stable
import Latency.Proofs.Bench.Rows
/-!
# Statistics and what is reported of them

Over exact times the samples have one ascending order, so their statistics do not depend on the
order in which they were taken (`Stats.ofSamples_perm`).  Percentiles are elements of that order, at
indices that it always has.  What a good row reports is rounded, the percentiles as the samples
are, so that they are found again among those.
-/

namespace Latency

/-! ## Exact times -/

theorem isWeak_rat : Order.IsWeak (Clock.before : Rat → Rat → Bool) where
  asymm h := decide_eq_false (not_lt.2 (le_of_lt (of_decide_eq_true h)))
  trans hfirst hsecond := decide_eq_false (not_lt.2 ((not_lt.1 (of_decide_eq_false hfirst)).trans
    (not_lt.1 (of_decide_eq_false hsecond))))

def ordered (times : List Rat) : List Rat :=
  Order.sort Clock.before times

theorem perm_ordered (times : List Rat) : (ordered times).Perm times :=
  Order.perm_sort _ times

theorem length_ordered (times : List Rat) : (ordered times).length = times.length :=
  (perm_ordered times).length_eq

theorem pairwise_ordered (times : List Rat) : (ordered times).Pairwise (· ≤ ·) :=
  (Order.sort_ascending isWeak_rat times).imp fun h => not_lt.1 (of_decide_eq_false h)

theorem ordered_perm {times others : List Rat} (h : others.Perm times) :
    ordered others = ordered times :=
  ((perm_ordered others).trans (h.trans (perm_ordered times).symm)).eq_of_pairwise
    (fun _ _ _ _ => le_antisymm) (pairwise_ordered others) (pairwise_ordered times)

theorem mean_rat (times : List Rat) :
    Measure.mean times = (.ok (times.sum / times.length) : Except Fault Rat) := by
  rw [List.sum_eq_foldl]
  rfl

/-! ## Ranks -/

section Ranks

variable {α : Type} [LinearOrder α] {xs : List α} {k : Nat}

theorem le_of_index_le (hxs : xs.Pairwise (· ≤ ·)) {i j : Nat} (hij : i ≤ j) (hj : j < xs.length) :
    xs[i] ≤ xs[j] := by
  obtain hlt | rfl := Nat.lt_or_eq_of_le hij
  · exact List.pairwise_iff_getElem.1 hxs i j _ hj hlt
  · exact le_refl _

/-- The element at an index has those up to it on its lower side. -/
theorem index_lt_countP_le (hxs : xs.Pairwise (· ≤ ·)) (hk : k < xs.length) :
    k + 1 ≤ xs.countP (· ≤ xs[k]) := by
  have hfront : (xs.take (k + 1)).countP (· ≤ xs[k]) = (xs.take (k + 1)).length := by
    rw [List.countP_eq_length]
    intro x hx
    obtain ⟨i, hi, rfl⟩ := List.mem_iff_getElem.1 hx
    have hik : i < k + 1 := Nat.lt_of_lt_of_le hi (List.length_take_le _ _)
    rw [List.getElem_take]
    exact decide_eq_true (le_of_index_le hxs (Nat.le_of_lt_succ hik) hk)
  have hcount := (List.take_sublist (k + 1) xs).countP_le (p := (· ≤ xs[k]))
  rwa [hfront, List.length_take_of_le hk] at hcount

/-- The element at an index has those from it on its upper side. -/
theorem length_sub_le_countP_ge (hxs : xs.Pairwise (· ≤ ·)) (hk : k < xs.length) :
    xs.length - k ≤ xs.countP (xs[k] ≤ ·) := by
  have hback : (xs.drop k).countP (xs[k] ≤ ·) = (xs.drop k).length := by
    rw [List.countP_eq_length]
    intro x hx
    obtain ⟨i, hi, rfl⟩ := List.mem_iff_getElem.1 hx
    rw [List.length_drop] at hi
    rw [List.getElem_drop]
    exact decide_eq_true (le_of_index_le hxs (Nat.le_add_right k i) (by omega))
  have hcount := (List.drop_sublist k xs).countP_le (p := (xs[k] ≤ ·))
  rwa [hback, List.length_drop] at hcount

end Ranks

/-! ## Statistics -/

/-- What statistics say of times: at least half of them are on either side of the median, which is
one of them; the 95th percentile stands at its index in their ascending order; and with the mean all
are between the least and the greatest. -/
structure Stats.Describes (stats : Stats Rat) (times : List Rat) : Prop where
  p50_mem : stats.p50 ∈ times
  p50_above : times.length / 2 + 1 ≤ times.countP (· ≤ stats.p50)
  p50_below : times.length - times.length / 2 ≤ times.countP (stats.p50 ≤ ·)
  p95_at : ∃ ascending : List Rat, ascending.Perm times ∧ ascending.Pairwise (· ≤ ·) ∧
    ascending[19 * times.length / 20]? = some stats.p95
  p50_le_p95 : stats.p50 ≤ stats.p95
  mean_eq : stats.mean = times.sum / times.length
  least : ∃ low ∈ times, (∀ t ∈ times, low ≤ t) ∧ low ≤ stats.p50 ∧ low ≤ stats.mean
  greatest : ∃ high ∈ times, (∀ t ∈ times, t ≤ high) ∧ stats.p95 ≤ high ∧ stats.mean ≤ high

theorem le_mean {low : Rat} {times : List Rat} (hne : times ≠ []) (h : ∀ t ∈ times, low ≤ t) :
    low ≤ times.sum / times.length := by
  have hpos : (0 : Rat) < times.length := by exact_mod_cast List.length_pos_iff.2 hne
  rw [le_div_iff₀ hpos, mul_comm, ← nsmul_eq_mul]
  exact List.card_nsmul_le_sum times low h

theorem mean_le {high : Rat} {times : List Rat} (hne : times ≠ []) (h : ∀ t ∈ times, t ≤ high) :
    times.sum / times.length ≤ high := by
  have hpos : (0 : Rat) < times.length := by exact_mod_cast List.length_pos_iff.2 hne
  rw [div_le_iff₀ hpos, mul_comm, ← nsmul_eq_mul]
  exact List.sum_le_card_nsmul times high h

/-- The statistics of times, read off their ascending order. -/
theorem Stats.ofSamples_rat {times : List Rat} (hne : times ≠ []) :
    ∃ (hmedian : times.length / 2 < (ordered times).length)
      (hpercentile : 19 * times.length / 20 < (ordered times).length),
      Stats.ofSamples times = .ok {
        p50 := (ordered times)[times.length / 2]
        p95 := (ordered times)[19 * times.length / 20]
        mean := times.sum / times.length } := by
  have hpos : 0 < times.length := List.length_pos_iff.2 hne
  have hlength := length_ordered times
  refine ⟨by omega, by omega, ?_⟩
  have hsum : (ordered times).sum = times.sum := (perm_ordered times).sum_eq
  have hunfold : Stats.ofSamples times = (Measure.mean (ordered times)).bind fun mean => .ok {
      p50 := (ordered times).get ⟨_, medianIndex_lt (hlength ▸ hpos)⟩
      p95 := (ordered times).get ⟨_, percentileIndex_lt (hlength ▸ hpos)⟩
      mean := mean } := dif_pos (hlength ▸ hpos)
  rw [hunfold, mean_rat, hsum]
  simp only [Except.bind, hlength, List.get_eq_getElem, medianIndex, percentileIndex]

/-- The order in which samples were taken makes no difference. -/
theorem Stats.ofSamples_perm {times others : List Rat} (h : others.Perm times) :
    Stats.ofSamples others = Stats.ofSamples times := by
  have hsame : Order.sort Clock.before others = Order.sort Clock.before times := ordered_perm h
  simp only [Stats.ofSamples, List.get_eq_getElem, hsame]

theorem Stats.describes {times : List Rat} (hne : times ≠ []) :
    ∃ stats, Stats.ofSamples times = .ok stats ∧ stats.Describes times := by
  obtain ⟨hmedian, hpercentile, hstats⟩ := Stats.ofSamples_rat hne
  have hperm := perm_ordered times
  have hsorted := pairwise_ordered times
  have hpos : 0 < (ordered times).length := Nat.lt_of_le_of_lt (Nat.zero_le _) hmedian
  have hleast (t : Rat) (ht : t ∈ times) : (ordered times)[0] ≤ t := by
    obtain ⟨i, hi, rfl⟩ := List.mem_iff_getElem.1 (hperm.mem_iff.2 ht)
    exact le_of_index_le hsorted (Nat.zero_le i) hi
  have hgreatest (t : Rat) (ht : t ∈ times) :
      t ≤ (ordered times)[(ordered times).length - 1] := by
    obtain ⟨i, hi, rfl⟩ := List.mem_iff_getElem.1 (hperm.mem_iff.2 ht)
    exact le_of_index_le hsorted (Nat.le_sub_one_of_lt hi) _
  refine ⟨_, hstats, ?_⟩
  exact {
    p50_mem := hperm.mem_iff.1 (List.getElem_mem hmedian)
    p50_above := (index_lt_countP_le hsorted hmedian).trans_eq (hperm.countP_eq _)
    p50_below := by
      have hcount := length_sub_le_countP_ge hsorted hmedian
      rwa [length_ordered, hperm.countP_eq] at hcount
    p95_at := ⟨ordered times, hperm, hsorted, List.getElem?_eq_getElem hpercentile⟩
    p50_le_p95 := le_of_index_le hsorted (by omega) hpercentile
    mean_eq := rfl
    least := ⟨_, hperm.mem_iff.1 (List.getElem_mem hpos), hleast,
      le_of_index_le hsorted (Nat.zero_le _) hmedian, le_mean hne hleast⟩
    greatest := ⟨_, hperm.mem_iff.1 (List.getElem_mem (Nat.sub_one_lt_of_lt hpos)), hgreatest,
      le_of_index_le hsorted (Nat.le_sub_one_of_lt hpercentile) _, mean_le hne hgreatest⟩ }

theorem Outcome.exists_toRow {samples : List (Sample Rat)} {d : Option (Diagnostics Rat)}
    {m : Option Int} {label : String} {limit : Nat} :
    (∃ row, (Outcome.ok samples d m).toRow label limit = .ok row) ↔ samples ≠ [] := by
  constructor
  · rintro ⟨row, hrow⟩ rfl
    cases hrow
  · intro hne
    have htimes : samples.map (·.ms) ≠ [] := fun hnil => hne (List.map_eq_nil_iff.1 hnil)
    obtain ⟨stats, hstats, -⟩ := Stats.describes htimes
    unfold Outcome.toRow
    simp only
    rw [hstats]
    exact ⟨_, rfl⟩

/-- Samples are found missing in an outcome that has none, and in no other. -/
theorem Outcome.toRow_noSamples (outcome : Outcome Rat) (label : String) (limit : Nat) :
    outcome.toRow label limit = .error .noSamples ↔ ∃ d m, outcome = .ok [] d m := by
  constructor
  · intro h
    cases outcome with
    | ok samples d m =>
      by_cases hnil : samples = []
      · exact ⟨d, m, by rw [hnil]⟩
      · obtain ⟨row, hrow⟩ := Outcome.exists_toRow.2 hnil
        rw [hrow] at h
        cases h
    | invalid response d m =>
      unfold Outcome.toRow at h
      simp only at h
      cases hsummary : summary? limit response with
      | none =>
        rw [hsummary] at h
        cases h
      | some summary =>
        rw [hsummary] at h
        cases h
    | failed error logs m => cases h
  · rintro ⟨d, m, rfl⟩
    rfl

/-! ## What is reported of a row -/

section Report

variable {τ : Type} [Measure τ] {label : String} {limit : Nat} {outcome : Outcome τ} {row : Row τ}

/-- Both percentiles are samples, whatever the clock. -/
theorem Stats.mem_of_ofSamples {samples : List τ} {stats : Stats τ}
    (h : Stats.ofSamples samples = .ok stats) : stats.p50 ∈ samples ∧ stats.p95 ∈ samples := by
  have hperm := Order.perm_sort Clock.before samples
  unfold Stats.ofSamples at h
  simp only at h
  split at h
  · obtain ⟨mean, -, hstats⟩ := bind_ok h
    obtain rfl := Except.ok.inj hstats
    exact ⟨hperm.mem_iff.1 (List.get_mem _ _), hperm.mem_iff.1 (List.get_mem _ _)⟩
  · cases h

theorem Outcome.stats_of_toRow (h : outcome.toRow label limit = .ok row) (hok : row.status = .ok) :
    Stats.ofSamples (row.iterations.map (·.ms)) = .ok ⟨row.p50, row.p95, row.mean⟩ := by
  cases outcome with
  | ok samples diagnostics memory =>
    obtain ⟨stats, hstats, hrow⟩ := bind_ok h
    obtain rfl := Except.ok.inj hrow
    exact hstats
  | invalid response diagnostics memory =>
    obtain ⟨summary, -, hrow⟩ := bind_ok h
    obtain rfl := Except.ok.inj hrow
    cases hok
  | failed error logs memory =>
    obtain rfl := Except.ok.inj h
    cases hok

/-- What a good row reports, time by time. -/
structure Row.Rounded (row : Row τ) (p50 p95 mean : τ) (iterations : List (τ × Json)) : Prop where
  p50 : Measure.hundredths row.p50 = .ok p50
  p95 : Measure.hundredths row.p95 = .ok p95
  mean : Measure.hundredths row.mean = .ok mean
  iterations : List.Forall₂ (fun s i => Measure.hundredths s.ms = .ok i.1 ∧ i.2 = s.response)
    row.iterations iterations

theorem Row.rounded_of_report {report : RowReport τ} (hok : row.status = .ok)
    (h : row.report = .ok report) :
    ∃ p50 p95 mean iterations, report = .ok p50 p95 mean iterations row.summary ∧
      row.Rounded p50 p95 mean iterations := by
  unfold Row.report at h
  rw [hok] at h
  obtain ⟨p50, hp50, h⟩ := bind_ok h
  obtain ⟨p95, hp95, h⟩ := bind_ok h
  obtain ⟨mean, hmean, h⟩ := bind_ok h
  obtain ⟨iterations, hiterations, h⟩ := bind_ok h
  refine ⟨p50, p95, mean, iterations, (Except.ok.inj h).symm, hp50, hp95, hmean, ?_⟩
  refine (forall₂_of_mapM_ok hiterations).imp fun s i hi => ?_
  obtain ⟨ms, hms, hi⟩ := bind_ok hi
  obtain rfl := Except.ok.inj hi
  exact ⟨hms, rfl⟩

theorem Row.Rounded.percentiles_mem {p50 p95 mean : τ} {iterations : List (τ × Json)}
    (h : row.Rounded p50 p95 mean iterations) (hrow : outcome.toRow label limit = .ok row)
    (hok : row.status = .ok) :
    p50 ∈ iterations.map Prod.fst ∧ p95 ∈ iterations.map Prod.fst := by
  have hmem {exact reported : τ} (hexact : exact ∈ row.iterations.map (·.ms))
      (hround : Measure.hundredths exact = .ok reported) : reported ∈ iterations.map Prod.fst := by
    obtain ⟨s, hs, rfl⟩ := List.mem_map.1 hexact
    obtain ⟨i, hi, hms, -⟩ := exists_of_forall₂ h.iterations hs
    obtain rfl := Except.ok.inj (hms.symm.trans hround)
    exact List.mem_map_of_mem hi
  obtain ⟨hp50, hp95⟩ := Stats.mem_of_ofSamples (Outcome.stats_of_toRow hrow hok)
  exact ⟨hmem hp50 h.p50, hmem hp95 h.p95⟩

end Report

/-! ## Rounding of exact times -/

/-- A time as it is reported: a whole number of hundredths, half of one away at most. -/
structure RoundsTo (exact reported : Rat) : Prop where
  hundredths : ∃ n : Int, reported = n / 100
  near : |reported - exact| ≤ 1 / 200

theorem hundredths_rat (x : Rat) :
    Measure.hundredths x = (.ok (⌊x * 100 + 1 / 2⌋ / 100) : Except Fault Rat) := by
  rfl

theorem roundsTo_of_hundredths {x y : Rat} (h : Measure.hundredths x = .ok y) : RoundsTo x y := by
  rw [hundredths_rat] at h
  obtain rfl := Except.ok.inj h
  refine ⟨⟨_, rfl⟩, ?_⟩
  have hlow := Int.floor_le (x * 100 + 1 / 2)
  have hhigh := Int.lt_floor_add_one (x * 100 + 1 / 2)
  rw [abs_le]
  constructor <;> linarith

theorem hundredths_mono {x x' y y' : Rat} (hle : x ≤ x') (h : Measure.hundredths x = .ok y)
    (h' : Measure.hundredths x' = .ok y') : y ≤ y' := by
  rw [hundredths_rat] at h h'
  obtain rfl := Except.ok.inj h
  obtain rfl := Except.ok.inj h'
  have hfloor : ⌊x * 100 + 1 / 2⌋ ≤ ⌊x' * 100 + 1 / 2⌋ := Int.floor_mono (by linarith)
  gcongr

theorem exists_report_rat {row : Row Rat} (hok : row.status = .ok) :
    ∃ report, row.report = .ok report := by
  obtain ⟨iterations, hiterations⟩ := mapM_ok
    (f := fun s : Sample Rat => do return ((← Measure.hundredths s.ms), s.response))
    fun s (_ : s ∈ row.iterations) => ⟨_, rfl⟩
  unfold Row.report
  rw [hok, hiterations]
  exact ⟨_, rfl⟩

/-- What is reported of a good row over exact times: percentiles that are among its times, and every
number rounded. -/
structure Row.Reported (row : Row Rat) (p50 p95 mean : Rat) (iterations : List (Rat × Json)) :
    Prop where
  p50_mem : p50 ∈ iterations.map Prod.fst
  p95_mem : p95 ∈ iterations.map Prod.fst
  p50_le_p95 : p50 ≤ p95
  p50_rounds : RoundsTo row.p50 p50
  p95_rounds : RoundsTo row.p95 p95
  mean_rounds : RoundsTo row.mean mean
  iterations_round : List.Forall₂ (fun s i => RoundsTo s.ms i.1 ∧ i.2 = s.response)
    row.iterations iterations

/-! ## The document of a row -/

section Document

variable {row : Row Number} {json : Json} {p50 p95 mean : Number} {items : List Json}

/-- An iteration of a document: the time of a sample as it is reported, and its response. -/
def Sample.Documented (s : Sample Number) (item : Json) : Prop :=
  ∃ ms, item.get? "ms" = some (.num ms) ∧ item.get? "response" = some s.response ∧
    s.ms.ReportedAs ms

/-- The document of a good row.  Its percentiles are in order and among the times of its
iterations. -/
structure Row.Documented (row : Row Number) (json : Json) (p50 p95 mean : Number)
    (items : List Json) : Prop where
  server : json.get? "server" = some (.str row.label)
  status : json.get? "status" = some (.str "ok")
  response : json.get? "response" = some row.summary
  p50_get : json.get? "p50_ms" = some (.num p50)
  p95_get : json.get? "p95_ms" = some (.num p95)
  mean_get : json.get? "mean_ms" = some (.num mean)
  iterations_get : json.get? "iterations" = some (.arr items)
  iterations : List.Forall₂ Sample.Documented row.iterations items
  p50_mem : ∃ item ∈ items, item.get? "ms" = some (.num p50)
  p95_mem : ∃ item ∈ items, item.get? "ms" = some (.num p95)
  p50_le_p95 : p95.less p50 = false
  p50_reported : row.p50.ReportedAs p50
  p95_reported : row.p95.ReportedAs p95
  mean_reported : row.mean.ReportedAs mean

def iterationEntry (i : Number × Json) : Json :=
  .obj [("ms", .num i.1), ("response", i.2)]

theorem Row.exists_of_toJson (hok : row.status = .ok) (h : row.toJson = .ok json) :
    ∃ p50 p95 mean iterations memory, row.Rounded p50 p95 mean iterations ∧
      json = .obj ([("server", .str row.label), ("status", .str "ok"), ("p50_ms", .num p50),
        ("p95_ms", .num p95), ("mean_ms", .num mean),
        ("iterations", .arr (iterations.map iterationEntry)), ("response", row.summary)] ++
        memory) := by
  unfold Row.toJson at h
  obtain ⟨report, hreport, h⟩ := bind_ok h
  obtain ⟨p50, p95, mean, iterations, rfl, hrounded⟩ := Row.rounded_of_report hok hreport
  exact ⟨p50, p95, mean, iterations, _, hrounded, (Except.ok.inj h).symm⟩

/-- Percentiles of what are numbers stand in their order. -/
theorem Stats.percentiles_ascending {times : List Number} {stats : Stats Number}
    (h : Stats.ofSamples times = .ok stats) (hnumber : ∀ t ∈ times, t.isNaN = false) :
    stats.p95.less stats.p50 = false := by
  have hsorted : Order.Ascending Number.less (Order.sort Number.less times) :=
    Order.sort_ascending_of_forall Number.isWeak_less hnumber
  unfold Stats.ofSamples at h
  simp only at h
  split at h
  · next hpos =>
    obtain ⟨mean, -, h⟩ := bind_ok h
    obtain rfl := Except.ok.inj h
    change 0 < (Order.sort Number.less times).length at hpos
    change ((Order.sort Number.less times).get ⟨_, percentileIndex_lt hpos⟩).less
      ((Order.sort Number.less times).get ⟨_, medianIndex_lt hpos⟩) = false
    have hindex : medianIndex (Order.sort Number.less times).length ≤
        percentileIndex (Order.sort Number.less times).length := by
      unfold medianIndex percentileIndex
      omega
    obtain hlt | heq := hindex.lt_or_eq
    · exact List.pairwise_iff_get.1 hsorted ⟨_, _⟩ ⟨_, _⟩ hlt
    · simp only [heq]
      exact Number.less_irrefl _
  · cases h

theorem Row.documented_of_toJson {outcome : Outcome Number} {label : String} {limit : Nat}
    (hrow : outcome.toRow label limit = .ok row) (hok : row.status = .ok)
    (h : row.toJson = .ok json) : ∃ p50 p95 mean items, row.Documented json p50 p95 mean items := by
  obtain ⟨p50, p95, mean, iterations, memory, hrounded, rfl⟩ := Row.exists_of_toJson hok h
  obtain ⟨hp50, hp95⟩ := hrounded.percentiles_mem hrow hok
  have hmem {time : Number} (htime : time ∈ iterations.map Prod.fst) :
      ∃ item ∈ iterations.map iterationEntry, item.get? "ms" = some (.num time) := by
    obtain ⟨i, hi, rfl⟩ := List.mem_map.1 htime
    exact ⟨_, List.mem_map_of_mem hi, rfl⟩
  have hnumber : ∀ t ∈ row.iterations.map (·.ms), t.isNaN = false := by
    intro t ht
    obtain ⟨s, hs, rfl⟩ := List.mem_map.1 ht
    obtain ⟨i, -, hms, -⟩ := exists_of_forall₂ hrounded.iterations hs
    exact Number.isNaN_of_hundredths hms
  have hascending := Stats.percentiles_ascending (Outcome.stats_of_toRow hrow hok) hnumber
  refine ⟨p50, p95, mean, iterations.map iterationEntry, ?_⟩
  exact {
    server := rfl
    status := rfl
    response := rfl
    p50_get := rfl
    p95_get := rfl
    mean_get := rfl
    iterations_get := rfl
    iterations := by
      rw [List.forall₂_map_right_iff]
      refine hrounded.iterations.imp fun s i hi => ?_
      exact ⟨i.1, rfl, congrArg some hi.2, Number.reportedAs_of_hundredths hi.1⟩
    p50_mem := hmem hp50
    p95_mem := hmem hp95
    p50_le_p95 := Number.hundredths_mono hrounded.p50 hrounded.p95 hascending
    p50_reported := Number.reportedAs_of_hundredths hrounded.p50
    p95_reported := Number.reportedAs_of_hundredths hrounded.p95
    mean_reported := Number.reportedAs_of_hundredths hrounded.mean }

end Document

/-- **Statistics and their report.**  Samples that are not empty have the same statistics in any
order, and these describe them; the index of the 95th percentile is what a product of doubles gives
that is rounded down.  A good outcome has no row exactly if it has no sample.  Of every good row
that was made of an outcome the percentiles are reported among its samples, in their order, and each
number is a whole number of hundredths next to the exact one.  With doubles, too, the percentiles of
the document are among the times of its iterations and in their order, and each number is the double
nearest to a whole number of hundredths, next to the exact one. -/
theorem statistics_reported :
    (∀ times : List Rat, times ≠ [] → ∃ stats : Stats Rat, stats.Describes times ∧
      ∀ others, others.Perm times → Stats.ofSamples others = .ok stats) ∧
    (∀ n < 2 ^ 48, Number.floor (Decimal.ofInt (n : Nat) * 0.95) = .ok (percentileIndex n : Int)) ∧
    (∀ (outcome : Outcome Rat) label limit,
      (outcome.toRow label limit = .error .noSamples ↔ ∃ d m, outcome = .ok [] d m) ∧
      (∀ samples d m, outcome = .ok samples d m →
        ((∃ row, outcome.toRow label limit = .ok row) ↔ samples ≠ [])) ∧
      ∀ row, outcome.toRow label limit = .ok row → row.status = .ok →
        Stats.ofSamples (row.iterations.map (·.ms)) = .ok ⟨row.p50, row.p95, row.mean⟩ ∧
        ∃ p50 p95 mean iterations,
          row.report = .ok (.ok p50 p95 mean iterations row.summary) ∧
          row.Reported p50 p95 mean iterations) ∧
    ∀ (outcome : Outcome Number) label limit row json,
      outcome.toRow label limit = .ok row → row.status = .ok → row.toJson = .ok json →
        ∃ p50 p95 mean items, row.Documented json p50 p95 mean items := by
  refine ⟨fun times hne => ?_, fun n hn => floor_mul_eq_percentileIndex hn,
    fun outcome label limit => ⟨?_, ?_, fun row hrow hok => ?_⟩, ?_⟩
  · obtain ⟨stats, hstats, hdescribes⟩ := Stats.describes hne
    exact ⟨stats, hdescribes, fun others hperm => (Stats.ofSamples_perm hperm).trans hstats⟩
  · exact outcome.toRow_noSamples label limit
  · rintro samples d m rfl
    exact Outcome.exists_toRow
  · have hstats := Outcome.stats_of_toRow hrow hok
    obtain ⟨report, hreport⟩ := exists_report_rat hok
    obtain ⟨p50, p95, mean, iterations, rfl, hrounded⟩ := Row.rounded_of_report hok hreport
    obtain ⟨hp50, hp95⟩ := hrounded.percentiles_mem hrow hok
    have hle : row.p50 ≤ row.p95 := by
      obtain ⟨stats, hsame, hdescribes⟩ := Stats.describes (Stats.ne_nil_of_ofSamples_ok hstats)
      obtain rfl := Except.ok.inj (hsame.symm.trans hstats)
      exact hdescribes.p50_le_p95
    refine ⟨hstats, p50, p95, mean, iterations, hreport, ?_⟩
    exact {
      p50_mem := hp50
      p95_mem := hp95
      p50_le_p95 := hundredths_mono hle hrounded.p50 hrounded.p95
      p50_rounds := roundsTo_of_hundredths hrounded.p50
      p95_rounds := roundsTo_of_hundredths hrounded.p95
      mean_rounds := roundsTo_of_hundredths hrounded.mean
      iterations_round := hrounded.iterations.imp fun s i hi =>
        ⟨roundsTo_of_hundredths hi.1, hi.2⟩ }
  · intro outcome label limit row json hrow hok hjson
    exact Row.documented_of_toJson hrow hok hjson

def Outcome.ofTimes {τ : Type} (times : List τ) : Outcome τ :=
  .ok (times.map fun ms => { ms := ms, response := .obj [] }) none none

theorem statistics_reported_unordered :
    (∃ stats : Stats Rat, stats.Describes [3, 1, 7 / 3] ∧
      Stats.ofSamples [1, 7 / 3, 3] = .ok stats) ∧
    Number.floor (Decimal.ofInt 40 * 0.95) = .ok 38 ∧
    (∃ row p50 p95 mean iterations, (Outcome.ofTimes [(3 : Rat), 1, 7 / 3]).toRow "a" 80 = .ok row ∧
      row.report = .ok (.ok p50 p95 mean iterations row.summary) ∧
      row.Reported p50 p95 mean iterations) ∧
    ∃ row json p50 p95 mean items,
      (Outcome.ofTimes [Number.float 3.0, .float 1.0, .float 2.125]).toRow "a" 80 = .ok row ∧
      row.toJson = .ok json ∧ row.Documented json p50 p95 mean items := by
  obtain ⟨htimes, hindex, hexact, hdoubles⟩ := statistics_reported
  refine ⟨?_, hindex 40 (by decide), ?_, ?_⟩
  · obtain ⟨stats, hdescribes, hstats⟩ := htimes [3, 1, 7 / 3] (List.cons_ne_nil _ _)
    exact ⟨stats, hdescribes, hstats _ (by decide +kernel)⟩
  · have hmade : (match (Outcome.ofTimes [(3 : Rat), 1, 7 / 3]).toRow "a" 80 with
        | .ok row => decide (row.status = .ok)
        | .error _ => false) = true := by decide +kernel
    split at hmade
    · next row hrow =>
      obtain ⟨-, -, hgood⟩ := hexact (Outcome.ofTimes [(3 : Rat), 1, 7 / 3]) "a" 80
      obtain ⟨-, p50, p95, mean, iterations, hreport, hreported⟩ :=
        hgood row hrow (of_decide_eq_true hmade)
      exact ⟨row, p50, p95, mean, iterations, hrow, hreport, hreported⟩
    · cases hmade
  · have hmade : (match
          (Outcome.ofTimes [Number.float 3.0, .float 1.0, .float 2.125]).toRow "a" 80 with
        | .ok row => decide (row.status = .ok) && row.toJson.isOk
        | .error _ => false) = true := by decide +kernel
    split at hmade
    · next row hrow =>
      obtain ⟨hok, hjson⟩ := Bool.and_eq_true_iff.1 hmade
      cases hjson' : row.toJson with
      | error fault =>
        rw [hjson'] at hjson
        cases hjson
      | ok json =>
        obtain ⟨p50, p95, mean, items, hdocumented⟩ :=
          hdoubles _ "a" 80 row json hrow (of_decide_eq_true hok) hjson'
        exact ⟨row, json, p50, p95, mean, items, hrow, hjson', hdocumented⟩
    · cases hmade

end Latency
