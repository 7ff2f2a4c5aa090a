import Latency.Proofs.Lists
import Latency.Proofs.Run.Verification
/-!
# Servers of a record

A record has an entry for each server that was there, in order, with its name and its version.  What
else an entry says is looked up by the name, so it is said of the last server that has it: servers
that share a name share a description and a link (`all_lists_servers`).
-/

namespace Latency

/-! ## Entries -/

def LastLabelled (servers : List Server) (label : String) (known : Server) : Prop :=
  IsLast (fun server => server.label = label) servers known

namespace Record

/-- An entry has this name and version, and the description and the link of a server, each exactly
if it is not empty. -/
structure Describes (entry : Json) (label version : String) (known : Server) : Prop where
  name : entry.get? "name" = some (.str label)
  version : entry.get? "version" = some (.str version)
  description (v : Json) : entry.get? "description" = some v ↔
    known.description ≠ "" ∧ v = .str known.description
  link (v : Json) : entry.get? "link" = some v ↔ known.link ≠ "" ∧ v = .str known.link

/-- The entries of servers, in their order: each has the name and the version of its server, and is
otherwise about the last server with this name, which is the server itself unless a later one has
its name too. -/
structure Lists (h : Host Number) (servers : List Server) (listed : List Json) : Prop where
  length_eq : listed.length = servers.length
  entry (i : Nat) (server : Server) : servers[i]? = some server →
    ∃ entry version known, listed[i]? = some entry ∧ h.versionOf server.cmd = .ok version ∧
      LastLabelled servers server.label known ∧ Describes entry server.label version known ∧
      ((∀ j later, i < j → servers[j]? = some later → later.label ≠ server.label) →
        known = server)

end Record

namespace Record

theorem lookup_textMember_self (key text : String) (v : Json) :
    (textMember key text).lookup key = some v ↔ text ≠ "" ∧ v = .str text := by
  unfold textMember
  split
  · next hempty => simp [hempty]
  · next hsome => simp [hsome, eq_comm]

theorem lookup_textMember_of_ne {key other : String} (hne : other ≠ key) (text : String) :
    (textMember key text).lookup other = none := by
  unfold textMember
  split
  · rfl
  · rw [List.lookup_cons, beq_false_of_ne hne, List.lookup_nil]

theorem describes_serverEntry {servers : List Server} {label : String} {known : Server}
    (hlast : LastLabelled servers label known) (version : String) :
    Describes (serverEntry servers label version) label version known := by
  have hentry : serverEntry servers label version =
      .obj (("name", .str label) :: ("version", .str version) ::
        (textMember "description" known.description ++ textMember "link" known.link)) := by
    simp only [serverEntry, (find?_reverse_eq_some_iff fun _ => beq_iff_eq).2 hlast]
    rfl
  rw [hentry]
  refine ⟨rfl, rfl, fun v => ?_, fun v => ?_⟩
  · have hlink := lookup_textMember_of_ne (show "description" ≠ "link" by decide) known.link
    change (textMember "description" known.description ++
      textMember "link" known.link).lookup "description" = some v ↔ _
    rw [List.lookup_append, hlink, Option.or_none]
    exact lookup_textMember_self "description" known.description v
  · have hdescription :=
      lookup_textMember_of_ne (show "link" ≠ "description" by decide) known.description
    change (textMember "description" known.description ++
      textMember "link" known.link).lookup "link" = some v ↔ _
    rw [List.lookup_append, hdescription, Option.none_or]
    exact lookup_textMember_self "link" known.link v

theorem servers_of_build {now : Moment} {results : Results} {versions : Versions}
    {servers : List Server} {s : Settings} {record : Json}
    (h : build now results versions servers s = .ok record) :
    record.get? "servers" = some (.arr (versions.map fun v => serverEntry servers v.1 v.2)) := by
  obtain ⟨benchmarks, -, h⟩ := bind_ok h
  obtain rfl := Except.ok.inj h
  rfl

theorem lists_map_serverEntry {h : Host Number} {servers : List Server} {versions : Versions}
    (hversions : List.Forall₂ (fun server v => v.1 = server.label ∧
      h.versionOf server.cmd = .ok v.2) servers versions) :
    Lists h servers (versions.map fun v => serverEntry servers v.1 v.2) where
  length_eq := by rw [List.length_map, hversions.length_eq]
  entry i server hserver := by
    obtain ⟨hi, rfl⟩ := List.getElem?_eq_some_iff.1 hserver
    have hv : i < versions.length := hversions.length_eq ▸ hi
    obtain ⟨hlabel, hversion⟩ := (List.forall₂_iff_get.1 hversions).2 i hi hv
    simp only [List.get_eq_getElem] at hlabel hversion
    obtain ⟨known, hlast⟩ : ∃ known, LastLabelled servers servers[i].label known :=
      (exists_isLast _ servers).resolve_left fun hnone => hnone _ (List.getElem_mem hi) rfl
    refine ⟨serverEntry servers servers[i].label versions[i].2, versions[i].2, known, ?_, hversion,
      hlast, describes_serverEntry hlast _, hlast.eq_of_last hserver rfl⟩
    rw [List.getElem?_map, List.getElem?_eq_getElem hv, Option.map_some, hlabel]

end Record

/-! ## Versions of a run -/

namespace Run

variable {s : Settings} {r r' : Run} {names : List String} {tally : Option Tally} {p : Plan}
  {tracing verbose : Bool} {done : Finished}

theorem detectVersions_ok {servers : List Server} {versions : Versions}
    (h : detectVersions servers r = (.ok versions, r')) :
    List.Forall₂ (fun server v => v.1 = server.label ∧ r.host.versionOf server.cmd = .ok v.2)
      servers versions := by
  induction servers generalizing r versions with
  | nil =>
    obtain rfl := Except.ok.inj (Prod.mk.inj h).1
    exact .nil
  | cons server rest ih =>
    unfold detectVersions at h
    split at h
    · cases (Prod.mk.inj h).1
    next version hversion =>
    obtain ⟨hmap, rfl⟩ := Prod.mk.inj h
    obtain ⟨others, hothers, rfl⟩ := map_ok hmap
    have hrest : detectVersions rest (r.say ["  " ++ server.label ++ " = " ++ version]) =
        (.ok others, _) := Prod.ext hothers rfl
    have hbehind := ih hrest
    exact .cons ⟨rfl, hversion⟩ hbehind

theorem versions_of_plan {total : Nat} (h : plan s total tracing verbose r = (.ok p, r')) :
    List.Forall₂ (fun server v => v.1 = server.label ∧ r.host.versionOf server.cmd = .ok v.2)
      p.servers p.versions := by
  unfold plan at h
  split at h
  · cases (Prod.mk.inj h).1
  split at h
  · cases (Prod.mk.inj h).1
  next servers selected hselect =>
  split at h
  · cases (Prod.mk.inj h).1
  next versions detected hdetect =>
  split at h
  · cases (Prod.mk.inj h).1
  · cases (Prod.mk.inj h).1
  obtain rfl := Except.ok.inj (Prod.mk.inj h).1
  have hversions := detectVersions_ok hdetect
  change List.Forall₂ (fun server v => v.1 = server.label ∧
    selected.host.versionOf server.cmd = .ok v.2) servers versions at hversions
  rwa [(selectServers_ok hselect).2] at hversions

/-- Whatever a plan makes a record of, the record lists its servers. -/
theorem Plan.servers_of_record {planned passed : Run} {results : Results} {record : Json}
    (hplan : plan s names.length tracing verbose r = (.ok p, planned))
    (hrecord : p.record passed results = .ok record) :
    ∃ listed, record.get? "servers" = some (.arr listed) ∧
      Record.Lists r.host (s.servers.filter r.host.offers) listed := by
  refine ⟨_, Record.servers_of_build hrecord, ?_⟩
  rw [← (plan_ok hplan).1.servers]
  exact Record.lists_map_serverEntry (versions_of_plan hplan)

theorem record_of_all {path : Path} (h : all s names tracing verbose tally r = (.ok done, r'))
    (hpath : done.path = some path) :
    ∃ p planned record, plan s names.length tracing verbose r = (.ok p, planned) ∧
      p.record r' done.results = .ok record ∧
      r'.host.files.get? (r'.host.files.place path) = some (.file (Record.octets record)) := by
  obtain ⟨p, planned, last, hplan, hbenchmarks, hfinish⟩ := all_ok h
  have hresults : done.results.map Prod.fst = names := (all_counts h).1
  have hnames : names ≠ [] := by
    rintro rfl
    rw [finish, List.map_eq_nil_iff.1 hresults, if_pos List.isEmpty_nil] at hfinish
    rw [← Except.ok.inj (Prod.mk.inj hfinish).1] at hpath
    cases hpath
  obtain ⟨written, hwritten, hpublished⟩ :=
    published_of_benchmarks hnames (plan_ok hplan).2 hbenchmarks hresults hfinish
  obtain rfl : written = path := Option.some.inj (hwritten.symm.trans hpath)
  obtain ⟨record, hrecord, -, hfile, -⟩ := hpublished.stands
  exact ⟨p, planned, record, hplan, hrecord, hfile⟩

/-- **The servers of a record.**  The record of a run that comes to its end lists the servers that
were there, in the order of the settings, each with its name and its version.  The description and
the link are those of the last server with this name: they are the server's own unless a later one
has its name too. -/
theorem all_lists_servers (s : Settings) (names : List String) (tracing verbose : Bool)
    (tally : Option Tally) (r r' : Run) (done : Finished) (path : Path)
    (hall : all s names tracing verbose tally r = (.ok done, r')) (hpath : done.path = some path) :
    ∃ record listed,
      r'.host.files.get? (r'.host.files.place path) = some (.file (Record.octets record)) ∧
      record.get? "servers" = some (.arr listed) ∧
      Record.Lists r.host (s.servers.filter r.host.offers) listed := by
  obtain ⟨p, planned, record, hplan, hrecord, hfile⟩ := record_of_all hall hpath
  obtain ⟨listed, hlisted, hlists⟩ := Plan.servers_of_record hplan hrecord
  exact ⟨record, listed, hfile, hlisted, hlists⟩

section Twins

def twins : List Server := [
  { label := "twin", cmd := "one", description := "old" },
  { label := "other", cmd := "two", link := "link" },
  { label := "twin", cmd := "six", description := "new" }]

def twinDocument : Value :=
  .map [
    (.str "project", .str "/"), (.str "file", .str "a"),
    (.str "iterations", .num (.int 1)), (.str "warmup", .num (.int 0)),
    (.str "servers", .seq (twins.map fun server => .map [
      (.str "label", .str server.label), (.str "cmd", .str server.cmd),
      (.str "description", .str server.description), (.str "link", .str server.link)]))]

def twinHost : Host Number where
  clock := .int 0
  files := ⟨⟨"/", []⟩, [(["a"], .file [])]⟩
  lookups := twins.map fun server => (server.cmd, .told (.finished 0 ("/bin/" ++ server.cmd) ""))
  versions := [("one", .told (.finished 0 "1.0" ""))]
  now := { date := ⟨2026, 2, 13⟩ }

theorem exists_twinRun : ∃ loaded s done r' path, Settings.ofValue twinDocument = .ok loaded ∧
    loaded.override {} = .ok s ∧
    all s ["initialize"] false false none ⟨twinHost, []⟩ = (.ok done, r') ∧
    done.path = some path ∧ s.servers.filter twinHost.offers = twins := by
  have hrun : ((Settings.ofValue twinDocument).toOption.any fun loaded =>
      (loaded.override {}).toOption.any fun s =>
        decide (s.servers.filter twinHost.offers = twins) &&
          (all s ["initialize"] false false none ⟨twinHost, []⟩).1.toOption.any (·.path.isSome)) =
      true := by
    decide +kernel
  obtain ⟨loaded, hvalue, hrun⟩ := any_toOption.1 hrun
  obtain ⟨s, hoptions, hrun⟩ := any_toOption.1 hrun
  rw [Bool.and_eq_true, decide_eq_true_iff] at hrun
  obtain ⟨hservers, hrun⟩ := hrun
  obtain ⟨done, hall, hpath⟩ := any_toOption.1 hrun
  obtain ⟨path, hpath⟩ := Option.isSome_iff_exists.1 hpath
  exact ⟨loaded, s, done, _, path, hvalue, hoptions, Prod.ext hall rfl, hpath, hservers⟩

/-- The record of the twins lists all three of them. -/
theorem all_lists_servers_twins : ∃ s done r' path,
    all s ["initialize"] false false none ⟨twinHost, []⟩ = (.ok done, r') ∧
    done.path = some path ∧ ∃ record listed,
      r'.host.files.get? (r'.host.files.place path) = some (.file (Record.octets record)) ∧
      record.get? "servers" = some (.arr listed) ∧ Record.Lists twinHost twins listed := by
  obtain ⟨loaded, s, done, r', path, -, -, hall, hpath, hservers⟩ := exists_twinRun
  obtain ⟨record, listed, hfile, hlisted, hlists⟩ :=
    all_lists_servers s ["initialize"] false false none ⟨twinHost, []⟩ r' done path hall hpath
  exact ⟨s, done, r', path, hall, hpath, record, listed, hfile, hlisted, hservers ▸ hlists⟩

/-- The first twin has a description of its own, and the record gives it that of the last one. -/
theorem twin_described_as_other : ∃ loaded s done r' path record listed server entry,
    Settings.ofValue twinDocument = .ok loaded ∧ loaded.override {} = .ok s ∧
    all s ["initialize"] false false none ⟨twinHost, []⟩ = (.ok done, r') ∧
    done.path = some path ∧
    r'.host.files.get? (r'.host.files.place path) = some (.file (Record.octets record)) ∧
    record.get? "servers" = some (.arr listed) ∧
    (s.servers.filter twinHost.offers)[0]? = some server ∧ listed[0]? = some entry ∧
    server.description = "old" ∧ entry.get? "description" = some (.str "new") := by
  obtain ⟨loaded, s, done, r', path, hvalue, hoptions, hall, hpath, hservers⟩ := exists_twinRun
  obtain ⟨p, planned, record, hplan, hrecord, hfile⟩ := record_of_all hall hpath
  obtain ⟨listed, hlisted, hlists⟩ := Plan.servers_of_record hplan hrecord
  change Record.Lists twinHost (s.servers.filter twinHost.offers) listed at hlists
  rw [hservers] at hlists
  obtain ⟨entry, version, known, hentry, -, hlast, hdescribes, -⟩ := hlists.entry 0 _ rfl
  have hknown := (find?_reverse_eq_some_iff fun _ => beq_iff_eq).2 hlast
  obtain rfl := Option.some.inj hknown
  exact ⟨loaded, s, done, r', path, record, listed, _, entry, hvalue, hoptions, hall, hpath, hfile,
    hlisted, by rw [hservers]; rfl, hentry, rfl, (hdescribes.description _).2 ⟨by decide, rfl⟩⟩

end Twins

end Run

end Latency
