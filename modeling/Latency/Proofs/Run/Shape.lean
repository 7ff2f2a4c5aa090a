import Latency.Run
import Latency.Proofs.Bench.Samples
import Latency.Proofs.Run.Records
import Latency.Proofs.Settings.Bounds
/-!
# The shape of a run

A run that comes to its end has a result of each benchmark, and the result has a row of each server
that was there when the run began.  After each benchmark the record so far is read back from the
place aside; at the end the whole record stands in the directory for records, and nothing else that
is a file has changed.
-/

namespace Latency

def Host.offers {τ : Type} (h : Host τ) (server : Server) : Bool :=
  match h.isAvailable server.cmd with
  | .ok there => there
  | .error _ => false

namespace Settings

def edits (s : Settings) (name : String) : List Edit :=
  ((s.methods.lookup name).map (·.edits)).getD []

def measured (s : Settings) (name : String) : Int :=
  if name = handshakeName ∨ name = diagnosticName ∨ s.edits name = [] then s.iterations
  else (s.edits name).length

end Settings

namespace Run

variable {p : Plan} {s : Settings} {r r' : Run} {name : String} {names : List String}
  {number : Nat} {tally tally' : Option Tally} {rows : List (Row Number)}
  {results out : Results} {path directory : Path}

/-! ## The plan -/

theorem selectServers_ok {servers chosen : List Server}
    (h : selectServers servers r = (.ok chosen, r')) :
    chosen = servers.filter r.host.offers ∧ r'.host = r.host := by
  induction servers generalizing chosen r with
  | nil =>
    obtain ⟨hchosen, rfl⟩ := Prod.mk.inj h
    exact ⟨(Except.ok.inj hchosen).symm, rfl⟩
  | cons server rest ih =>
    unfold selectServers at h
    split at h
    · cases (Prod.mk.inj h).1
    · next havailable =>
      have hoffers : r.host.offers server = true := by rw [Host.offers, havailable]
      obtain ⟨hmap, rfl⟩ := Prod.mk.inj h
      obtain ⟨others, hothers, rfl⟩ := map_ok hmap
      obtain ⟨rfl, hhost⟩ := ih (Prod.ext hothers rfl)
      rw [List.filter_cons_of_pos hoffers]
      exact ⟨rfl, hhost⟩
    · next havailable =>
      have hoffers : ¬ r.host.offers server = true := by simp [Host.offers, havailable]
      have hrest := ih h
      rw [List.filter_cons_of_neg hoffers]
      exact hrest

theorem host_detectVersions (servers : List Server) (r : Run) :
    (detectVersions servers r).2.host = r.host := by
  induction servers generalizing r with
  | nil => rfl
  | cons server rest ih =>
    unfold detectVersions
    split
    · rfl
    · exact ih _

/-- What a plan takes from the settings and the machine. -/
structure Plan.Fits (p : Plan) (s : Settings) (h : Host Number) : Prop where
  settings : p.settings = s
  output : s.output = some p.output
  servers : p.servers = s.servers.filter h.offers
  warmup : p.bench.warmup = s.warmup
  iterations : p.bench.iterations = s.iterations

theorem benchSettings_ok {files : Files} {tracing : Bool} {b : BenchSettings Number}
    (h : benchSettings files directory s tracing = .ok b) :
    b.warmup = s.warmup ∧ b.iterations = s.iterations := by
  obtain ⟨target, -, h⟩ := bind_ok h
  obtain ⟨timeout, -, h⟩ := bind_ok h
  obtain ⟨indexTimeout, -, h⟩ := bind_ok h
  obtain rfl := Except.ok.inj h
  exact ⟨rfl, rfl⟩

theorem plan_ok {total : Nat} {tracing verbose : Bool}
    (h : plan s total tracing verbose r = (.ok p, r')) :
    p.Fits s r.host ∧ r'.host = r.host := by
  unfold plan at h
  split at h
  · cases (Prod.mk.inj h).1
  split at h
  · cases (Prod.mk.inj h).1
  next servers selected hselect =>
  obtain ⟨hservers, hselected⟩ := selectServers_ok hselect
  split at h
  · cases (Prod.mk.inj h).1
  next versions detected hdetect =>
  have hdetected : detected.host = r.host := by
    have hhost := host_detectVersions servers (selected.say ["\nDetecting versions..."])
    rw [hdetect] at hhost
    exact hhost.trans hselected
  split at h
  · cases (Prod.mk.inj h).1
  · cases (Prod.mk.inj h).1
  next b output hbench houtput =>
  obtain ⟨hplan, rfl⟩ := Prod.mk.inj h
  obtain rfl := Except.ok.inj hplan
  obtain ⟨hwarmup, hiterations⟩ := benchSettings_ok hbench
  exact ⟨⟨rfl, houtput, hservers, hwarmup, hiterations⟩, hdetected⟩

/-! ## One benchmark -/

def Plan.sweep (p : Plan) (name : String) (h : Host Number) : Swept Number × Host Number :=
  sweepTask (Task.ofName name (resolveEdits p.bench.directory (p.settings.methods.lookup name)))
    p.bench (Params.forMethod p.settings.methods p.settings.line p.settings.col) p.verbose
    p.servers h

theorem benchmark_ok (h : benchmark p tally number name r = (.ok (rows, tally'), r')) :
    (p.sweep name r.host).1.rows = .ok rows ∧ r'.host = (p.sweep name r.host).2 := by
  unfold benchmark at h
  simp only at h
  split at h
  · cases (Prod.mk.inj h).1
  next made hmade =>
  split at h
  · obtain ⟨hrows, rfl⟩ := Prod.mk.inj h
    obtain ⟨rfl, -⟩ := Prod.mk.inj (Except.ok.inj hrows)
    exact ⟨hmade, rfl⟩
  · obtain ⟨hrows, rfl⟩ := Prod.mk.inj h
    obtain ⟨rfl, -⟩ := Prod.mk.inj (Except.ok.inj hrows)
    exact ⟨hmade, rfl⟩

theorem files_benchmark (h : benchmark p tally number name r = (.ok (rows, tally'), r')) :
    r'.host.files = r.host.files := by
  rw [(benchmark_ok h).2]
  exact files_sweepTask

/-- The record of results at this moment of a run. -/
def Plan.record (p : Plan) (r : Run) (results : Results) : Except Fault Json :=
  Record.build r.host.now results p.versions p.servers p.settings

/-- The record of results, which tells all of them, is read back from a path. -/
def Plan.Saved (p : Plan) (r : Run) (results : Results) (path : Path) : Prop :=
  ∃ record, p.record r results = .ok record ∧ Record.TellsResults results record ∧
    r.host.files.read path = .ok (Record.octets record)

theorem saveRecord_ok (h : saveRecord p results directory r = (.ok path, r')) :
    ∃ record saved, p.record r results = .ok record ∧
      Record.save r.host.now record directory r.host.files = .ok (path, saved) ∧
      r' = { r with host := { r.host with files := saved } } := by
  unfold saveRecord at h
  split at h
  · cases (Prod.mk.inj h).1
  next record hrecord =>
  split at h
  · cases (Prod.mk.inj h).1
  next path' saved hsave =>
  obtain ⟨hpath, hrun⟩ := Prod.mk.inj h
  obtain rfl := Except.ok.inj hpath
  exact ⟨record, saved, hrecord, hsave, hrun.symm⟩

theorem isName_partial : Path.IsName "partial" where
  slash := by decide
  ne_empty := by decide
  ne_here := by decide
  ne_up := by decide

theorem place_aside (files : Files) (p : Plan) :
    files.place p.aside = files.place p.output ++ ["partial"] :=
  Files.place_child isName_partial files p.output

/-- What stands aside is the record so far. -/
structure Plan.Kept (p : Plan) (r : Run) (results : Results) : Prop where
  saved : p.Saved r results (p.aside.child (Record.fileName r.host.now))
  aside : r.host.files.entry? p.aside = .ok .directory

theorem saveRecord_aside (h : saveRecord p results p.aside r = (.ok path, r')) :
    p.Kept r' results ∧
      Files.SameElsewhere (r.host.files.place p.aside) r.host.files r'.host.files := by
  obtain ⟨record, saved, hrecord, hsave, rfl⟩ := saveRecord_ok h
  obtain ⟨hpath, made, hmore, hdirectory, hwrite⟩ := Record.save_ok hsave
  rw [hpath] at hwrite
  have hread := Files.read_of_write_ok hwrite
  have haside := (Files.keeps_of_write_ok hwrite).entry?_directory hdirectory
  have hplace := Files.place_child (Record.isName_fileName r.host.now) made p.aside
  have hbelow : r.host.files.place p.aside <+:
      made.place (p.aside.child (Record.fileName r.host.now)) := by
    rw [hplace, Files.place_congr hmore.base]
    exact List.prefix_append _ _
  refine ⟨⟨⟨record, hrecord, Record.tellsResults_of_build hrecord, hread⟩, haside⟩, ?_⟩
  exact (hmore.sameElsewhere _).trans (Files.sameElsewhere_of_write_ok hwrite hbelow)

/-! ## Benchmarks one after the other -/

theorem benchmarks_cons (p : Plan) (number : Nat) (name : String) (rest : List String)
    (results : Results) (tally : Option Tally) (r : Run) :
    benchmarks p number (name :: rest) results tally r =
      match benchmark p tally number name r with
      | (.error why, r) => (.error why, r)
      | (.ok (rows, tally), r) =>
        match saveRecord p (results ++ [(name, rows)]) p.aside r with
        | (.error why, r) => (.error why, r)
        | (.ok path, r) =>
          benchmarks p (number + 1) rest (results ++ [(name, rows)]) tally
            (r.say ["  saved " ++ path.text]) :=
  rfl

theorem benchmarks_cons_ok {rest : List String} {last : Option Tally}
    (h : benchmarks p number (name :: rest) results tally r = (.ok (out, last), r')) :
    ∃ rows tally₁ r₁ path r₂, benchmark p tally number name r = (.ok (rows, tally₁), r₁) ∧
      saveRecord p (results ++ [(name, rows)]) p.aside r₁ = (.ok path, r₂) ∧
      benchmarks p (number + 1) rest (results ++ [(name, rows)]) tally₁
        (r₂.say ["  saved " ++ path.text]) = (.ok (out, last), r') := by
  rw [benchmarks_cons] at h
  split at h
  · cases (Prod.mk.inj h).1
  next rows tally₁ r₁ hbenchmark =>
  split at h
  · cases (Prod.mk.inj h).1
  next path r₂ hsave => exact ⟨rows, tally₁, r₁, path, r₂, hbenchmark, hsave, h⟩

theorem benchmarks_files
    (h : benchmarks p number names results tally r = (.ok (out, tally'), r')) :
    Files.SameElsewhere (r.host.files.place p.aside) r.host.files r'.host.files := by
  induction names generalizing number results tally r with
  | nil =>
    obtain ⟨-, rfl⟩ := Prod.mk.inj h
    exact .refl _ _
  | cons name rest ih =>
    obtain ⟨rows, tally₁, r₁, path, r₂, hbenchmark, hsave, hrest⟩ := benchmarks_cons_ok h
    have hfiles := files_benchmark hbenchmark
    obtain ⟨-, hsaved⟩ := saveRecord_aside hsave
    have hlater := ih hrest
    rw [hfiles] at hsaved
    have hplace : r₂.host.files.place p.aside = r.host.files.place p.aside :=
      Files.place_congr hsaved.base p.aside
    change Files.SameElsewhere (r₂.host.files.place p.aside) r₂.host.files r'.host.files at hlater
    rw [hplace] at hlater
    exact hsaved.trans hlater

/-- After the last benchmark the record aside is that of all results. -/
theorem benchmarks_kept (hnames : names ≠ [])
    (h : benchmarks p number names results tally r = (.ok (out, tally'), r')) :
    p.Kept r' out := by
  induction names generalizing number results tally r with
  | nil => exact absurd rfl hnames
  | cons name rest ih =>
    obtain ⟨rows, tally₁, r₁, path, r₂, -, hsave, hrest⟩ := benchmarks_cons_ok h
    cases rest with
    | nil =>
      obtain ⟨hout, rfl⟩ := Prod.mk.inj hrest
      obtain ⟨rfl, -⟩ := Prod.mk.inj (Except.ok.inj hout)
      obtain ⟨⟨hsaved, haside⟩, -⟩ := saveRecord_aside hsave
      exact ⟨hsaved, haside⟩
    | cons next others => exact ih (List.cons_ne_nil next others) hrest

/-- What the end of a run leaves: the record of all results stands in the directory for records,
nothing is aside any more, and no other file is different from before the run.  The record is also
read back from its path, which only a path that goes up may fail to: it may lead through the
directory that was removed. -/
structure Plan.Published (p : Plan) (r r' : Run) (results : Results) (path : Path) : Prop where
  path_eq : path = p.output.child (Record.fileName r'.host.now)
  stands : ∃ record, p.record r' results = .ok record ∧ Record.TellsResults results record ∧
    r'.host.files.get? (r'.host.files.place path) = some (.file (Record.octets record)) ∧
    (".." ∉ (r'.host.files.base.join path).parts →
      r'.host.files.read path = .ok (Record.octets record))
  aside : r'.host.files.contains p.aside = .ok false
  elsewhere : ∀ q octets, ¬ r.host.files.place p.aside <+: q → q ≠ r.host.files.place path →
    (r'.host.files.get? q = some (.file octets) ↔ r.host.files.get? q = some (.file octets))

theorem aside_not_prefix (files : Files) (p : Plan) (now : Moment) :
    ¬ files.place p.aside <+: files.place (p.output.child (Record.fileName now)) := by
  rw [place_aside, Files.place_child (Record.isName_fileName now)]
  intro hbelow
  have heq := hbelow.eq_of_length (by simp)
  have hname : "partial" = Record.fileName now := List.singleton_inj.1 (List.append_cancel_left heq)
  exact Record.fileName_ne (by decide) now hname.symm

theorem published_of_saveRecord {last : Run} (haside : r.host.files.entry? p.aside = .ok .directory)
    (hsave : saveRecord p results p.output r = (.ok path, last)) :
    p.Published r
      { last with host := { last.host with files := last.host.files.removeTree p.aside } }
      results path := by
  obtain ⟨record, saved, hrecord, hsaved, rfl⟩ := saveRecord_ok hsave
  obtain ⟨hpath, made, hmore, -, hwrite⟩ := Record.save_ok hsaved
  have hkeeps := hmore.keeps.trans (Files.keeps_of_write_ok hwrite)
  have hdirectory := hkeeps.entry?_directory haside
  have hbase : (saved.removeTree p.aside).base = saved.base := by
    rw [Files.removeTree_eq hdirectory]
  have hout : ¬ saved.place p.aside <+: saved.place path := by
    rw [hpath]
    exact aside_not_prefix saved p r.host.now
  have hnonempty : saved.place p.aside ≠ [] := by
    rw [place_aside]
    simp
  have htells := Record.tellsResults_of_build hrecord
  refine ⟨hpath, ⟨record, hrecord, htells, ?_, fun hup => ?_⟩, ?_, fun q octets hq hne => ?_⟩
  · have hwritten : saved.place path = made.place path :=
      Files.place_congr (Files.keeps_of_write_ok hwrite).base path
    rw [Files.place_congr hbase, Files.get?_removeTree_of_not_prefix hdirectory hout, hwritten]
    exact (Files.get?_of_write_ok hwrite).1
  · simp only [hbase] at hup
    exact Files.read_removeTree hdirectory (Files.read_of_write_ok hwrite) hout hup
  · exact Files.contains_removeTree hdirectory hnonempty
  · rw [← Files.place_congr hkeeps.base] at hq
    rw [← Files.place_congr hmore.base] at hne
    have hfile := hmore.file_iff q octets
    rw [← (Files.get?_of_write_ok hwrite).2 q hne,
      ← Files.get?_removeTree_of_not_prefix hdirectory hq] at hfile
    exact hfile

theorem finish_ok {done : Finished} (hresults : results ≠ [])
    (h : finish p results tally r = (.ok done, r')) :
    ∃ path last, saveRecord p results p.output r = (.ok path, last) ∧
      done = ⟨results, some path, tally⟩ ∧
      r' = { last with
        host := { last.host with files := last.host.files.removeTree p.aside } } := by
  unfold finish at h
  rw [if_neg (by simpa using hresults)] at h
  split at h
  · cases (Prod.mk.inj h).1
  next path last hsave =>
  obtain ⟨hdone, hlast⟩ := Prod.mk.inj h
  exact ⟨path, last, hsave, (Except.ok.inj hdone).symm, hlast.symm⟩

/-- From the plan to the end only two things happen to files: something is kept aside, and the
record of all results is written. -/
theorem published_of_benchmarks {planned last : Run} {done : Finished} (hnames : names ≠ [])
    (hhost : planned.host = r.host)
    (hbenchmarks : benchmarks p 1 names [] tally planned = (.ok (done.results, done.tally), last))
    (hresults : done.results.map Prod.fst = names)
    (hfinish : finish p done.results done.tally last = (.ok done, r')) :
    ∃ path, done.path = some path ∧ p.Published r r' done.results path := by
  have hsome : done.results ≠ [] := by
    intro hnone
    rw [hnone] at hresults
    exact hnames hresults.symm
  obtain ⟨path, written, hsave, hdone, rfl⟩ := finish_ok hsome hfinish
  have hpublished := published_of_saveRecord (benchmarks_kept hnames hbenchmarks).aside hsave
  have hbefore := benchmarks_files hbenchmarks
  rw [hhost] at hbefore
  have helsewhere := hpublished.elsewhere
  rw [Files.place_congr hbefore.base, Files.place_congr hbefore.base] at helsewhere
  refine ⟨path, by rw [hdone], hpublished.path_eq, hpublished.stands, hpublished.aside, ?_⟩
  intro q octets hq hne
  exact (helsewhere q octets hq hne).trans (hbefore.file_iff q octets hq)

/-! ## The whole -/

theorem all_ok {tracing verbose : Bool} {done : Finished}
    (h : all s names tracing verbose tally r = (.ok done, r')) :
    ∃ p planned last, plan s names.length tracing verbose r = (.ok p, planned) ∧
      benchmarks p 1 names [] tally planned = (.ok (done.results, done.tally), last) ∧
      finish p done.results done.tally last = (.ok done, r') := by
  unfold all at h
  split at h
  · cases (Prod.mk.inj h).1
  next p planned hplan =>
  split at h
  · cases (Prod.mk.inj h).1
  next results tallied last hbenchmarks =>
  have hdone : done.results = results ∧ done.tally = tallied := by
    by_cases hresults : results = []
    · subst hresults
      obtain rfl := Except.ok.inj (Prod.mk.inj h).1
      exact ⟨rfl, rfl⟩
    · obtain ⟨path, saved, -, rfl, -⟩ := finish_ok hresults h
      exact ⟨rfl, rfl⟩
  rw [← hdone.1, ← hdone.2] at hbenchmarks h
  exact ⟨p, planned, last, hplan, hbenchmarks, h⟩

section Pair

def verdicts (results : Results) : List (String × List (String × Status)) :=
  results.map fun entry => (entry.1, entry.2.map fun row => (row.label, row.status))

end Pair

end Run

end Latency
