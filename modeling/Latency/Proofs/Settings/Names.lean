import Mathlib.Tactic.Common
import Latency.Catalogue
import Latency.Proofs.Text.Digits
/-!
# Names of benchmarks

A benchmark goes by its full name, by its name without the group in front, and by the short words
for it.  No two benchmarks go by one name, so a name means the one that goes by it, wherever in the
look-up it is found (`resolveName?_eq_some_iff`).  None of these names has white space in it, so a
text means a benchmark exactly if it is such a name between white space (`means_iff`).
-/

namespace Latency

/-- The names that a benchmark goes by: its own, what is left of it behind its group, and the other
words for it. -/
inductive GoesBy (benchmark : String) : String → Prop
  | full : GoesBy benchmark benchmark
  | short {group name : String} : group ∈ groups → group ++ name = benchmark →
    GoesBy benchmark name
  | word {name : String} : (name, benchmark) ∈ aliases → GoesBy benchmark name

/-- What a name means that has no white space around it. -/
def meant? (name : String) : Option String :=
  if catalogue.contains name then some name
  else
    match aliases.lookup name with
    | some benchmark => some benchmark
    | none => (groups.map (· ++ name)).find? catalogue.contains

theorem resolveName?_eq_meant? (given : String) : resolveName? given = meant? (Text.trim given) :=
  rfl

theorem mem_catalogue_of_alias : ∀ entry ∈ aliases, entry.2 ∈ catalogue := by
  decide

theorem goesBy_of_meant? {name benchmark : String} (h : meant? name = some benchmark) :
    benchmark ∈ catalogue ∧ GoesBy benchmark name := by
  unfold meant? at h
  split at h
  · next hfull =>
    obtain rfl := Option.some.inj h
    exact ⟨List.contains_iff_mem.1 hfull, .full⟩
  split at h
  · next found halias =>
    obtain rfl := Option.some.inj h
    obtain ⟨before, behind, haliases, -⟩ := List.lookup_eq_some_iff.1 halias
    have hmem : (name, found) ∈ aliases := by
      rw [haliases]
      exact List.mem_append_right _ List.mem_cons_self
    exact ⟨mem_catalogue_of_alias _ hmem, .word hmem⟩
  · have hcatalogue := List.find?_some h
    obtain ⟨group, hgroup, rfl⟩ := List.mem_map.1 (List.mem_of_find?_eq_some h)
    exact ⟨List.contains_iff_mem.1 hcatalogue, .short hgroup rfl⟩

/-- What is left of a full name behind a group means that name again. -/
theorem meant?_of_group : ∀ benchmark ∈ catalogue, ∀ group ∈ groups,
    group.toList <+: benchmark.toList →
      meant? (String.ofList (benchmark.toList.drop group.toList.length)) = some benchmark := by
  decide +kernel

theorem meant?_of_alias : ∀ entry ∈ aliases, meant? entry.1 = some entry.2 := by
  decide +kernel

theorem meant?_of_goesBy {name benchmark : String} (hbenchmark : benchmark ∈ catalogue)
    (h : GoesBy benchmark name) : meant? name = some benchmark := by
  cases h with
  | full => rw [meant?, if_pos (List.contains_iff_mem.2 hbenchmark)]
  | @short group _ hgroup hname =>
    subst hname
    have hmeant := meant?_of_group _ hbenchmark group hgroup (by simp)
    rwa [String.toList_append, List.drop_left, String.ofList_toList] at hmeant
  | word hword => exact meant?_of_alias _ hword

/-- A name means a benchmark exactly if the benchmark goes by it, white space around it aside. -/
theorem resolveName?_eq_some_iff {given benchmark : String} :
    resolveName? given = some benchmark ↔
      benchmark ∈ catalogue ∧ GoesBy benchmark (Text.trim given) := by
  rw [resolveName?_eq_meant?]
  exact ⟨goesBy_of_meant?, fun h => meant?_of_goesBy h.1 h.2⟩

/-! ## White space around names -/

/-- White space alone, or nothing. -/
def Blank (s : String) : Prop :=
  ∀ c ∈ s.toList, Text.isBlank c = true

/-- A text means a benchmark: it is a name that the benchmark goes by, between white space. -/
inductive Means : String → String → Prop
  | around {benchmark front name back : String} : benchmark ∈ catalogue → GoesBy benchmark name →
    Blank front → Blank back → Means (front ++ name ++ back) benchmark

def Unknown (given : String) : Prop :=
  ∀ benchmark, ¬ Means given benchmark

theorem exists_around_trim (s : String) :
    ∃ front back, Blank front ∧ Blank back ∧ front ++ Text.trim s ++ back = s := by
  obtain ⟨rest, hrest⟩ : ∃ rest, s.toList.dropWhile Text.isBlank = rest := ⟨_, rfl⟩
  refine ⟨String.ofList (s.toList.takeWhile Text.isBlank),
    String.ofList (rest.reverse.takeWhile Text.isBlank).reverse, ?_, ?_, ?_⟩
  · intro c hc
    rw [String.toList_ofList] at hc
    exact List.mem_takeWhile_imp hc
  · intro c hc
    rw [String.toList_ofList, List.mem_reverse] at hc
    exact List.mem_takeWhile_imp hc
  · have hback : (rest.reverse.dropWhile Text.isBlank).reverse ++
        (rest.reverse.takeWhile Text.isBlank).reverse = rest := by
      rw [← List.reverse_append, List.takeWhile_append_dropWhile, List.reverse_reverse]
    apply String.toList_inj.1
    rw [Text.trim, Text.trimBy, hrest, String.toList_append, String.toList_append,
      String.toList_ofList, String.toList_ofList, String.toList_ofList, List.append_assoc, hback,
      ← hrest, List.takeWhile_append_dropWhile]

theorem trim_around {front name back : String} (hfront : Blank front) (hback : Blank back)
    (hname : ∀ c ∈ name.toList, Text.isBlank c = false) :
    Text.trim (front ++ name ++ back) = name := by
  rw [Text.trim, String.toList_append, String.toList_append, List.append_assoc,
    Text.trimBy_around hfront hname hback, String.ofList_toList]

theorem isBlank_names : ∀ name ∈ catalogue ++ aliases.map Prod.fst, ∀ c ∈ name.toList,
    Text.isBlank c = false := by
  have hall : ((catalogue ++ aliases.map Prod.fst).all fun name =>
      name.toList.all fun c => !Text.isBlank c) = true := by
    decide +kernel
  intro name hname c hc
  simpa using List.all_eq_true.1 (List.all_eq_true.1 hall name hname) c hc

theorem isBlank_catalogue {benchmark : String} (h : benchmark ∈ catalogue) :
    ∀ c ∈ benchmark.toList, Text.isBlank c = false :=
  isBlank_names benchmark (List.mem_append_left _ h)

theorem isBlank_of_goesBy {name benchmark : String} (hbenchmark : benchmark ∈ catalogue)
    (h : GoesBy benchmark name) : ∀ c ∈ name.toList, Text.isBlank c = false := by
  cases h with
  | full => exact isBlank_catalogue hbenchmark
  | @short group _ _ hname =>
    subst hname
    intro c hc
    refine isBlank_catalogue hbenchmark c ?_
    rw [String.toList_append]
    exact List.mem_append_right _ hc
  | word hword =>
    exact isBlank_names name (List.mem_append_right _ (List.mem_map_of_mem hword))

theorem means_iff {given benchmark : String} :
    Means given benchmark ↔ resolveName? given = some benchmark := by
  rw [resolveName?_eq_some_iff]
  constructor
  · rintro ⟨hbenchmark, hgoes, hfront, hback⟩
    rw [trim_around hfront hback (isBlank_of_goesBy hbenchmark hgoes)]
    exact ⟨hbenchmark, hgoes⟩
  · rintro ⟨hbenchmark, hgoes⟩
    obtain ⟨front, back, hfront, hback, hgiven⟩ := exists_around_trim given
    rw [← hgiven]
    exact .around hbenchmark hgoes hfront hback

theorem unknown_iff {given : String} : Unknown given ↔ resolveName? given = none := by
  simp only [Unknown, means_iff, Option.eq_none_iff_forall_ne_some, ne_eq]

theorem Means.mem_catalogue {given benchmark : String} (h : Means given benchmark) :
    benchmark ∈ catalogue :=
  (resolveName?_eq_some_iff.1 (means_iff.1 h)).1

/-- No text means two benchmarks. -/
theorem Means.unique {given benchmark other : String} (h : Means given benchmark)
    (h' : Means given other) : benchmark = other :=
  Option.some.inj ((means_iff.1 h).symm.trans (means_iff.1 h'))

theorem means_self {benchmark : String} (h : benchmark ∈ catalogue) :
    Means benchmark benchmark := by
  have hbare : Means ("" ++ benchmark ++ "") benchmark :=
    .around h .full (fun _ hc => nomatch hc) (fun _ hc => nomatch hc)
  rwa [String.empty_append, String.append_empty] at hbare

end Latency
