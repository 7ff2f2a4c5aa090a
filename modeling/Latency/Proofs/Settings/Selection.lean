import Mathlib.Data.List.Forall2
import Mathlib.Data.List.Perm.Subperm
import Latency.Command
import Latency.Proofs.Results
import Latency.Proofs.Settings.Names
/-!
# Selecting benchmarks

A list of names selects the benchmarks that its names mean, each once and in the order of the
catalogue, whatever the order of the names and however they are written.  It is refused for the
first of them that means nothing, unless it asks for all benchmarks (`selection_by_names`).
-/

namespace Latency

theorem nodup_catalogue : catalogue.Nodup := by
  decide

theorem all_not_mem_catalogue : "all" ∉ catalogue := by
  decide

theorem unknown_all : Unknown "all" :=
  unknown_iff.2 (by decide)

/-! ## What a list of names stands for -/

/-- The first of the names that means nothing. -/
def FirstUnknown (names : List String) (name : String) : Prop :=
  ∃ front back, names = front ++ name :: back ∧
    (∀ known ∈ front, ∃ benchmark, Means known benchmark) ∧ Unknown name

/-- What the names mean, each benchmark once and in the order of the catalogue. -/
structure IsSelection (names selected : List String) : Prop where
  ordered : selected.Sublist catalogue
  mem_iff : ∀ benchmark, benchmark ∈ selected ↔ ∃ name ∈ names, Means name benchmark

/-- Two lists of names stand for the same: they mean the same benchmarks, both or neither hold a name
that means nothing, and if so, both or neither hold `all`, which is such a name itself. -/
structure SameNames (names others : List String) : Prop where
  benchmark : ∀ benchmark, (∃ name ∈ names, Means name benchmark) ↔
    ∃ name ∈ others, Means name benchmark
  unknown : (∃ name ∈ names, Unknown name) ↔ ∃ name ∈ others, Unknown name
  all : (∃ name ∈ names, Unknown name) → ("all" ∈ names ↔ "all" ∈ others)

section Names

variable {names others selected other : List String}

theorem exists_means_iff {benchmark : String} :
    (∃ name ∈ names, Means name benchmark) ↔ some benchmark ∈ names.map resolveName? := by
  simp only [means_iff, List.mem_map]

theorem exists_unknown_iff :
    (∃ name ∈ names, Unknown name) ↔ none ∈ names.map resolveName? := by
  simp only [unknown_iff, List.mem_map]

theorem forall_means_iff :
    (∀ name ∈ names, ∃ benchmark, Means name benchmark) ↔ ¬ ∃ name ∈ names, Unknown name := by
  simp [Unknown]

theorem IsSelection.nodup (h : IsSelection names selected) : selected.Nodup :=
  h.ordered.nodup nodup_catalogue

theorem IsSelection.unique (h : IsSelection names selected) (h' : IsSelection names other) :
    selected = other := by
  have hmem (benchmark : String) : benchmark ∈ selected ↔ benchmark ∈ other :=
    (h.mem_iff benchmark).trans (h'.mem_iff benchmark).symm
  have hperm : selected.Perm other := (List.perm_ext_iff_of_nodup h.nodup h'.nodup).2 hmem
  exact (List.Nodup.perm_iff_eq_of_sublist nodup_catalogue h.ordered h'.ordered).1 hperm

/-- Where every name means something, the same benchmarks are enough. -/
theorem sameNames_of_means (hnames : ∀ name ∈ names, ∃ benchmark, Means name benchmark)
    (hothers : ∀ name ∈ others, ∃ benchmark, Means name benchmark)
    (hsame : ∀ benchmark, (∃ name ∈ names, Means name benchmark) ↔
      ∃ name ∈ others, Means name benchmark) : SameNames names others where
  benchmark := hsame
  unknown := iff_of_false (forall_means_iff.1 hnames) (forall_means_iff.1 hothers)
  all hunknown := (forall_means_iff.1 hnames hunknown).elim

theorem SameNames.symm (h : SameNames names others) : SameNames others names where
  benchmark benchmark := (h.benchmark benchmark).symm
  unknown := h.unknown.symm
  all hunknown := (h.all (h.unknown.2 hunknown)).symm

theorem SameNames.ne_nil (h : SameNames names others) (hne : names ≠ []) : others ≠ [] := by
  obtain ⟨name, hname⟩ := List.exists_mem_of_ne_nil names hne
  by_cases hknown : ∃ benchmark, Means name benchmark
  · obtain ⟨benchmark, hmeans⟩ := hknown
    obtain ⟨_, hmem, -⟩ := (h.benchmark benchmark).1 ⟨name, hname, hmeans⟩
    exact List.ne_nil_of_mem hmem
  · obtain ⟨_, hmem, -⟩ := h.unknown.1 ⟨name, hname, not_exists.1 hknown⟩
    exact List.ne_nil_of_mem hmem

theorem SameNames.isSelection (h : SameNames names others) (hselected : IsSelection names selected) :
    IsSelection others selected where
  ordered := hselected.ordered
  mem_iff benchmark := (hselected.mem_iff benchmark).trans (h.benchmark benchmark)

/-! ## Names one by one -/

def readName (name : String) : Except String String :=
  match resolveName? name with
  | some benchmark => .ok benchmark
  | none => .error name

theorem readName_ok_iff {name benchmark : String} :
    readName name = .ok benchmark ↔ Means name benchmark := by
  rw [means_iff, readName]
  cases resolveName? name <;> simp

theorem readName_error_iff {name why : String} :
    readName name = .error why ↔ Unknown name ∧ name = why := by
  rw [unknown_iff, readName]
  cases resolveName? name <;> simp

theorem isSelection_filter {resolved : List String}
    (h : List.Forall₂ (fun name benchmark => readName name = .ok benchmark) names resolved) :
    IsSelection names (catalogue.filter resolved.contains) where
  ordered := List.filter_sublist
  mem_iff benchmark := by
    rw [List.mem_filter, List.contains_iff_mem]
    constructor
    · rintro ⟨-, hresolved⟩
      obtain ⟨name, hname, hread⟩ := exists_of_forall₂ h.flip hresolved
      exact ⟨name, hname, readName_ok_iff.1 hread⟩
    · rintro ⟨name, hname, hmeans⟩
      obtain ⟨found, hfound, hread⟩ := exists_of_forall₂ h hname
      obtain rfl := (readName_ok_iff.1 hread).unique hmeans
      exact ⟨hmeans.mem_catalogue, hfound⟩

/-! ## Lists of names -/

theorem selectBenchmarks_everything (h : names = [] ∨ "all" ∈ names) :
    selectBenchmarks names = .ok catalogue := by
  have htest : (names.isEmpty || names.contains "all") = true := by simpa using h
  rw [selectBenchmarks, if_pos htest]

theorem selectBenchmarks_named (hne : names ≠ []) (hall : "all" ∉ names) :
    selectBenchmarks names =
      (names.mapM readName).map fun resolved => catalogue.filter resolved.contains := by
  have htest : ¬ (names.isEmpty || names.contains "all") = true := by simp [hne, hall]
  rw [selectBenchmarks, if_neg htest]
  rfl

theorem selectBenchmarks_ok_iff (hne : names ≠ []) (hall : "all" ∉ names) :
    selectBenchmarks names = .ok selected ↔
      (∀ name ∈ names, ∃ benchmark, Means name benchmark) ∧ IsSelection names selected := by
  rw [selectBenchmarks_named hne hall]
  constructor
  · intro h
    obtain ⟨resolved, hresolved, rfl⟩ := map_ok h
    have hread := forall₂_of_mapM_ok hresolved
    refine ⟨fun name hname => ?_, isSelection_filter hread⟩
    obtain ⟨benchmark, -, hbenchmark⟩ := exists_of_forall₂ hread hname
    exact ⟨benchmark, readName_ok_iff.1 hbenchmark⟩
  · rintro ⟨hknown, hselected⟩
    obtain ⟨resolved, hresolved⟩ : ∃ resolved, names.mapM readName = .ok resolved :=
      mapM_ok fun name hname => (hknown name hname).imp fun _ => readName_ok_iff.2
    have hfilter : catalogue.filter resolved.contains = selected :=
      (isSelection_filter (forall₂_of_mapM_ok hresolved)).unique hselected
    rw [hresolved, ← hfilter]
    rfl

theorem selectBenchmarks_error_iff (hne : names ≠ []) (hall : "all" ∉ names) {name : String} :
    selectBenchmarks names = .error name ↔ FirstUnknown names name := by
  simp only [selectBenchmarks_named hne hall, map_error_iff, mapM_error_iff, readName_ok_iff,
    readName_error_iff, FirstUnknown]
  constructor
  · rintro ⟨front, _, back, hnames, hfront, hunknown, rfl⟩
    exact ⟨front, back, hnames, hfront, hunknown⟩
  · rintro ⟨front, back, hnames, hfront, hunknown⟩
    exact ⟨front, name, back, hnames, hfront, hunknown, rfl⟩

/-- What a command says of the names that it refuses has the first unknown one in it. -/
theorem message_of_selectBenchmarks_error (hne : names ≠ []) (hall : "all" ∉ names)
    {why : Command.Refusal}
    (h : (selectBenchmarks names).mapError Command.Refusal.benchmarkUnknown = .error why) :
    ∃ name, FirstUnknown names name ∧ why.message = "unknown benchmark '" ++ name ++ "'" := by
  obtain ⟨name, hselect, rfl⟩ := mapError_error h
  exact ⟨name, (selectBenchmarks_error_iff hne hall).1 hselect, rfl⟩

theorem selectBenchmarks_refuses_iff (hne : names ≠ []) (hall : "all" ∉ names) :
    (∃ name, selectBenchmarks names = .error name) ↔ ∃ name ∈ names, Unknown name := by
  cases hselect : selectBenchmarks names with
  | error name =>
    obtain ⟨front, back, rfl, -, hunknown⟩ := (selectBenchmarks_error_iff hne hall).1 hselect
    exact iff_of_true ⟨name, rfl⟩ ⟨name, by simp, hunknown⟩
  | ok selected =>
    have hknown := ((selectBenchmarks_ok_iff hne hall).1 hselect).1
    exact iff_of_false (fun ⟨_, h⟩ => nomatch h) (forall_means_iff.1 hknown)

/-- What is selected is a part of the catalogue, and never nothing. -/
theorem sublist_of_selectBenchmarks_ok (h : selectBenchmarks names = .ok selected) :
    selected.Sublist catalogue ∧ selected ≠ [] := by
  by_cases heverything : names = [] ∨ "all" ∈ names
  · rw [selectBenchmarks_everything heverything] at h
    obtain rfl := Except.ok.inj h
    exact ⟨.refl _, List.cons_ne_nil _ _⟩
  · obtain ⟨hne, hall⟩ := not_or.1 heverything
    obtain ⟨hknown, hselected⟩ := (selectBenchmarks_ok_iff hne hall).1 h
    obtain ⟨name, hname⟩ := List.exists_mem_of_ne_nil names hne
    obtain ⟨benchmark, hmeans⟩ := hknown name hname
    exact ⟨hselected.ordered, List.ne_nil_of_mem ((hselected.mem_iff _).2 ⟨name, hname, hmeans⟩)⟩

/-- Full names in the order of the catalogue select themselves. -/
theorem selectBenchmarks_self (h : selected.Sublist catalogue) (hne : selected ≠ []) :
    selectBenchmarks selected = .ok selected := by
  have hself (name : String) (hname : name ∈ selected) : Means name name :=
    means_self (h.subset hname)
  refine (selectBenchmarks_ok_iff hne fun hall => all_not_mem_catalogue (h.subset hall)).2
    ⟨fun name hname => ⟨name, hself name hname⟩, h, fun benchmark => ?_⟩
  constructor
  · intro hbenchmark
    exact ⟨benchmark, hbenchmark, hself benchmark hbenchmark⟩
  · rintro ⟨name, hname, hmeans⟩
    rwa [hmeans.unique (hself name hname)]

theorem SameNames.selects (h : SameNames names others)
    (hselected : selectBenchmarks names = .ok selected) :
    selectBenchmarks others = .ok selected := by
  by_cases hall : "all" ∈ names
  · have hothers : "all" ∈ others := (h.all ⟨"all", hall, unknown_all⟩).1 hall
    rwa [selectBenchmarks_everything (.inr hothers), ← selectBenchmarks_everything (.inr hall)]
  by_cases hnil : names = []
  · have hothers : others = [] := by_contra fun hne => h.symm.ne_nil hne hnil
    rwa [hothers, ← hnil]
  obtain ⟨hknown, hselection⟩ := (selectBenchmarks_ok_iff hnil hall).1 hselected
  have hothers : ¬ ∃ name ∈ others, Unknown name := fun hunknown =>
    forall_means_iff.1 hknown (h.unknown.2 hunknown)
  have hall' : "all" ∉ others := fun hmem => hothers ⟨"all", hmem, unknown_all⟩
  exact (selectBenchmarks_ok_iff (h.ne_nil hnil) hall').2
    ⟨forall_means_iff.2 hothers, h.isSelection hselection⟩

end Names

/-- **Selecting benchmarks by names.**  No names, or `all` among them, select the whole catalogue,
whatever else is there.  Other names are refused exactly if one of them means nothing, and what is
said of it has the first such one as it is given; else they select what they mean, each benchmark
once and in the order of the catalogue.  So two lists select alike, or are both refused, if they
stand for the same: order, repetition, spelling and white space do not count.  What is selected is
a part of the catalogue, and selects itself. -/
theorem selection_by_names (names : List String) :
    (names = [] ∨ "all" ∈ names → selectBenchmarks names = .ok catalogue) ∧
    (names ≠ [] → "all" ∉ names →
      ((∃ name, selectBenchmarks names = .error name) ↔ ∃ name ∈ names, Unknown name) ∧
      (∀ name, selectBenchmarks names = .error name ↔ FirstUnknown names name) ∧
      (∀ why, (selectBenchmarks names).mapError Command.Refusal.benchmarkUnknown = .error why →
        ∃ name, FirstUnknown names name ∧ why.message = "unknown benchmark '" ++ name ++ "'") ∧
      ∀ selected, selectBenchmarks names = .ok selected ↔
        (∀ name ∈ names, ∃ benchmark, Means name benchmark) ∧ IsSelection names selected) ∧
    (∀ others, SameNames names others → ∀ selected,
      selectBenchmarks names = .ok selected ↔ selectBenchmarks others = .ok selected) ∧
    ∀ selected, selectBenchmarks names = .ok selected →
      selected.Sublist catalogue ∧ selected.Nodup ∧ selectBenchmarks selected = .ok selected := by
  refine ⟨selectBenchmarks_everything, fun hne hall => ⟨selectBenchmarks_refuses_iff hne hall,
    fun name => selectBenchmarks_error_iff hne hall,
    fun why => message_of_selectBenchmarks_error hne hall,
    fun selected => selectBenchmarks_ok_iff hne hall⟩,
    fun others h selected => ⟨h.selects, h.symm.selects⟩, fun selected h => ?_⟩
  obtain ⟨hsublist, hne⟩ := sublist_of_selectBenchmarks_ok h
  exact ⟨hsublist, hsublist.nodup nodup_catalogue, selectBenchmarks_self hsublist hne⟩

section Example

def spelledNames : List String :=
  [" hover", "init", "textDocument/hover", "diagnostics\u2003"]

def plainNames : List String :=
  ["initialize", "diagnostic", "hover"]

def namedBenchmarks : List String :=
  ["initialize", "textDocument/diagnostic", "textDocument/hover"]

theorem resolveName?_spelledNames : spelledNames.map resolveName? =
    [some "textDocument/hover", some "initialize", some "textDocument/hover",
      some "textDocument/diagnostic"] := by
  decide

theorem resolveName?_plainNames : plainNames.map resolveName? =
    [some "initialize", some "textDocument/diagnostic", some "textDocument/hover"] := by
  decide

theorem sameNames_spelledNames : SameNames spelledNames plainNames := by
  refine sameNames_of_means (forall_means_iff.2 ?_) (forall_means_iff.2 ?_) fun benchmark => ?_
  · rw [exists_unknown_iff, resolveName?_spelledNames]
    decide
  · rw [exists_unknown_iff, resolveName?_plainNames]
    decide
  · rw [exists_means_iff, exists_means_iff, resolveName?_spelledNames, resolveName?_plainNames]
    grind

/-- Spelling, repetition and order do not count, and the selection selects itself.  Of two unknown
names the first is refused, as it is given, unless there is `all`. -/
theorem selection_by_names_spellings :
    selectBenchmarks spelledNames = .ok namedBenchmarks ∧
    selectBenchmarks plainNames = .ok namedBenchmarks ∧
    selectBenchmarks namedBenchmarks = .ok namedBenchmarks ∧
    selectBenchmarks ["hover", " teleport", "nope"] = .error " teleport" ∧
    selectBenchmarks ["nope", "all"] = .ok catalogue := by
  have hspelled : selectBenchmarks spelledNames = .ok namedBenchmarks := by
    rfl
  obtain ⟨-, -, hsame, hself⟩ := selection_by_names spelledNames
  have hfirst : FirstUnknown ["hover", " teleport", "nope"] " teleport" := by
    refine ⟨["hover"], ["nope"], rfl, fun known hknown => ?_, unknown_iff.2 (by decide)⟩
    obtain rfl := List.mem_singleton.1 hknown
    exact ⟨"textDocument/hover", means_iff.2 (by decide)⟩
  obtain ⟨-, hnamed, -⟩ := selection_by_names ["hover", " teleport", "nope"]
  obtain ⟨-, hrefused, -⟩ := hnamed (List.cons_ne_nil _ _) (by decide)
  exact ⟨hspelled, (hsame plainNames sameNames_spelledNames _).1 hspelled, (hself _ hspelled).2.2,
    (hrefused " teleport").2 hfirst, (selection_by_names ["nope", "all"]).1 (.inr (by simp))⟩

end Example

end Latency
