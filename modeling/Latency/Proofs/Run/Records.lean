import Mathlib.Tactic.Common
import Latency.Record
import Latency.Proofs.Bench.Statistics
import Latency.Proofs.Files.Places
import Latency.Proofs.Results
import Latency.Proofs.Text.Digits
/-!
# Records

A record has an entry for each benchmark with the rows of it.  The name of its file is the time of
the run, so it is one component of a path whatever the time is, and none that anything else in the
directory for records is called.  Saving a record makes the directories on the way and that one
file.
-/

namespace Latency

/-! ## Stamps -/

def Stamped (s : String) : Prop :=
  ∀ c ∈ s.toList, Text.isDigit c = true ∨ c ∈ ['-', 'T', ':', 'Z']

theorem Stamped.append {s t : String} (hs : Stamped s) (ht : Stamped t) : Stamped (s ++ t) := by
  intro c hc
  rw [String.toList_append, List.mem_append] at hc
  exact hc.elim (hs c) (ht c)

theorem stamped_toString (n : Nat) : Stamped (toString n) := by
  intro c hc
  have hdigits : (toString n).toList = Nat.toDigits 10 n := by
    rw [Nat.toString_eq_repr, Nat.repr, String.toList_ofList]
  rw [hdigits] at hc
  exact .inl (Text.isDigit_of_mem_toDigits hc)

theorem stamped_padded (width n : Nat) : Stamped (padded width n) := by
  refine Stamped.append ?_ (stamped_toString n)
  intro c hc
  rw [String.toList_ofList] at hc
  rw [List.eq_of_mem_replicate hc]
  exact .inl (by decide)

theorem stamped_mark {mark : String} (h : mark ∈ ["-", "T", ":", "Z"]) : Stamped mark := by
  revert mark
  simp [Stamped]

theorem Moment.stamped_stamp (now : Moment) : Stamped now.stamp := by
  have hdash : Stamped "-" := stamped_mark (by simp)
  have hcolon : Stamped ":" := stamped_mark (by simp)
  have htwo (n : Nat) : Stamped (padded 2 n) := stamped_padded 2 n
  have hdate : Stamped now.date.stamp :=
    ((((stamped_toString _).append hdash).append (htwo _)).append hdash).append (htwo _)
  have hclock : Stamped now.clockText :=
    ((((htwo _).append hcolon).append (htwo _)).append hcolon).append (htwo _)
  exact ((hdate.append (stamped_mark (by simp))).append hclock).append (stamped_mark (by simp))

namespace Record

theorem slash_notMem_fileName (now : Moment) : '/' ∉ (fileName now).toList := by
  intro hslash
  rw [fileName, String.toList_append, List.mem_append, String.toList_ofList, List.mem_map] at hslash
  rcases hslash with ⟨c, hc, hdash⟩ | hsuffix
  · have hstamp := now.stamped_stamp c hc
    split at hdash
    · cases hdash
    · subst hdash
      revert hstamp
      decide
  · revert hsuffix
    decide

theorem getLast?_fileName (now : Moment) : (fileName now).toList.getLast? = some 'n' := by
  rw [fileName, String.toList_append, List.getLast?_append]
  rfl

theorem fileName_ne {s : String} (h : s.toList.getLast? ≠ some 'n') (now : Moment) :
    fileName now ≠ s := by
  rintro rfl
  exact h (getLast?_fileName now)

theorem isName_fileName (now : Moment) : Path.IsName (fileName now) where
  slash := slash_notMem_fileName now
  ne_empty := fileName_ne (by decide) now
  ne_here := fileName_ne (by decide) now
  ne_up := fileName_ne (by decide) now

/-! ## Entries of benchmarks -/

/-- What a record says of a row: whose it is, its verdict and what there is to say of that. -/
structure TellsRow (row : Row Number) (entry : Json) : Prop where
  server : entry.get? "server" = some (.str row.label)
  good : row.status = .ok → entry.get? "status" = some (.str "ok") ∧
    ∃ items, entry.get? "iterations" = some (.arr items) ∧
      items.length = row.iterations.length
  invalid : row.status = .invalid → entry.get? "status" = some (.str "invalid") ∧
    entry.get? "response" = some row.summary
  failed : row.status = .fail → entry.get? "status" = some (.str "fail") ∧
    entry.get? "error" = some (.str row.error)

/-- The entry of a benchmark has its name and its rows, in order. -/
structure TellsBenchmark (result : String × List (Row Number)) (entry : Json) : Prop where
  name : entry.get? "name" = some (.str result.1)
  rows : ∃ rows, entry.get? "servers" = some (.arr rows) ∧ List.Forall₂ TellsRow result.2 rows

/-- A record has one entry for each result, in order. -/
def TellsResults (results : Results) (record : Json) : Prop :=
  ∃ entries, record.get? "benchmarks" = some (.arr entries) ∧
    List.Forall₂ TellsBenchmark results entries

theorem tellsRow_of_toJson {row : Row Number} {entry : Json} (h : row.toJson = .ok entry) :
    TellsRow row entry := by
  have hserver : entry.get? "server" = some (.str row.label) := by
    obtain ⟨report, -, h⟩ := bind_ok h
    obtain rfl := Except.ok.inj h
    rfl
  refine ⟨hserver, fun hok => ?_, fun hinvalid => ?_, fun hfailed => ?_⟩
  · obtain ⟨p50, p95, mean, iterations, memory, hrounded, rfl⟩ := Row.exists_of_toJson hok h
    refine ⟨rfl, _, rfl, ?_⟩
    rw [List.length_map, hrounded.iterations.length_eq]
  · unfold Row.toJson Row.report at h
    rw [hinvalid] at h
    obtain rfl := Except.ok.inj h
    exact ⟨rfl, rfl⟩
  · unfold Row.toJson Row.report at h
    rw [hfailed] at h
    obtain rfl := Except.ok.inj h
    exact ⟨rfl, rfl⟩

theorem tellsBenchmark_of_benchmarkEntry {name : String} {rows : List (Row Number)} {entry : Json}
    (h : benchmarkEntry name rows = .ok entry) : TellsBenchmark (name, rows) entry := by
  obtain ⟨servers, hservers, h⟩ := bind_ok h
  obtain rfl := Except.ok.inj h
  refine ⟨rfl, servers, rfl, ?_⟩
  exact (forall₂_of_mapM_ok hservers).imp fun _ _ => tellsRow_of_toJson

theorem tellsResults_of_build {now : Moment} {results : Results} {versions : Versions}
    {servers : List Server} {s : Settings} {record : Json}
    (h : build now results versions servers s = .ok record) : TellsResults results record := by
  obtain ⟨entries, hentries, h⟩ := bind_ok h
  obtain rfl := Except.ok.inj h
  refine ⟨entries, rfl, ?_⟩
  exact (forall₂_of_mapM_ok hentries).imp fun _ _ => tellsBenchmark_of_benchmarkEntry

/-! ## Saving -/

def octets (record : Json) : List UInt8 :=
  Text.encodeUtf8 (Json.renderIndented record).toList

variable {now : Moment} {record : Json} {directory path : Path} {files saved : Files}

/-- A record is saved in a directory that is there then, where nothing but its file is new. -/
theorem save_ok (h : save now record directory files = .ok (path, saved)) :
    path = directory.child (fileName now) ∧
      ∃ made, Files.MoreDirectories files made ∧
        made.entry? directory = .ok .directory ∧ made.write path (octets record) = .ok saved := by
  obtain ⟨made, hmade, hsaved⟩ := bind_ok h
  obtain ⟨written, hwritten, hpair⟩ := bind_ok hsaved
  obtain ⟨rfl, rfl⟩ := Prod.mk.inj (Except.ok.inj hpair)
  obtain ⟨hmore, hdirectory⟩ := Files.makeDirectories_ok hmade
  exact ⟨rfl, made, hmore, hdirectory, hwritten⟩

end Record

end Latency
