import Mathlib.Logic.Function.Iterate
import Mathlib.Data.Nat.Find
import Mathlib.Tactic.Common
import Latency.Version
import Latency.Proofs.Files.Null
import Latency.Proofs.Json.RoundTrip
import Latency.Proofs.Results
import Latency.Proofs.Server.Helpers
/-!
# Versions of servers

What a server shows of its version goes before its package, and of the packages above its executable
the nearest one goes before the others.  A package file that gives no version is passed over, unless
it is a document of another kind: that breaks the search off.  So do paths that cannot be asked for.
-/

namespace Latency

/-! ## Packages -/

def packageFile (directory : Path) : Path :=
  directory.child "package.json"

/-- The document in the package file of a directory. -/
def PackageDocument (files : Files) (directory : Path) (document : Json) : Prop :=
  ∃ octets text, files.read (packageFile directory) = .ok octets ∧
    Text.decodeUtf8? octets = some text ∧ Json.parse? (Text.unifyNewlines text) = some document

/-- The name of a package, for which that of the executable stands in. -/
def packageName (binary : Path) (members : List (String × Json)) : String :=
  let name := (members.lookup "name").getD .null
  if name.truthy then name.display else binary.name

/-- A package file that gives a version. -/
inductive GivesVersion (files : Files) (binary directory : Path) : String → Prop
  | intro {members : List (String × Json)} {version : String} :
    PackageDocument files directory (.obj members) →
    members.lookup "version" = some (.str version) →
    GivesVersion files binary directory (packageName binary members ++ " " ++ version)

/-- A package file that a search passes over: it is not there or not readable, no document, or an
object without the text of a version. -/
inductive PassedOver (files : Files) (directory : Path) : Prop
  | unreadable {why : FileError} : files.read (packageFile directory) = .error why →
    why ≠ .nameTooLong → PassedOver files directory
  | illFormed {octets : List UInt8} : files.read (packageFile directory) = .ok octets →
    (∀ document, ¬ PackageDocument files directory document) → PassedOver files directory
  | versionless {members : List (String × Json)} : PackageDocument files directory (.obj members) →
    (∀ version, members.lookup "version" ≠ some (.str version)) → PassedOver files directory

/-- A package file that breaks a search off: a document that is no object, or a path that is too
long to be asked for. -/
inductive OddPackage (files : Files) (directory : Path) : VersionError → Prop
  | tooLong : files.read (packageFile directory) = .error .nameTooLong →
    OddPackage files directory (.file .nameTooLong)
  | notObject {document : Json} : PackageDocument files directory document →
    (∀ members, document ≠ .obj members) → OddPackage files directory .packageNotObject

section Packages

variable {files : Files} {binary directory : Path}

theorem packageVersion_document {document : Json}
    (h : PackageDocument files directory document) :
    packageVersion files binary directory =
      match document with
      | .obj members =>
        match members.lookup "version" with
        | some (.str version) => .ok (some (packageName binary members ++ " " ++ version))
        | _ => .ok none
      | _ => .error .packageNotObject := by
  obtain ⟨octets, text, hread, htext, hparse⟩ := h
  unfold packageVersion
  rw [packageFile] at hread
  simp only [hread, htext, Option.bind_some, hparse]
  cases document <;> rfl

theorem packageVersion_illFormed {octets : List UInt8}
    (hread : files.read (packageFile directory) = .ok octets)
    (h : ∀ document, ¬ PackageDocument files directory document) :
    packageVersion files binary directory = .ok none := by
  have hnone : ((Text.decodeUtf8? octets).bind fun text =>
      Json.parse? (Text.unifyNewlines text)) = none := by
    rw [Option.eq_none_iff_forall_not_mem]
    intro document hdocument
    obtain ⟨text, htext, hparse⟩ := Option.bind_eq_some_iff.1 hdocument
    exact h document ⟨octets, text, hread, htext, hparse⟩
  unfold packageVersion
  rw [packageFile] at hread
  simp only [hread, hnone]

theorem GivesVersion.packageVersion_eq {shown : String}
    (h : GivesVersion files binary directory shown) :
    packageVersion files binary directory = .ok (some shown) := by
  obtain ⟨hdocument, hversion⟩ := h
  rw [packageVersion_document hdocument]
  simp only [hversion]

theorem PassedOver.packageVersion_eq (h : PassedOver files directory) :
    packageVersion files binary directory = .ok none := by
  cases h with
  | @unreadable why hread hwhy =>
    unfold packageVersion
    rw [packageFile] at hread
    rw [hread]
    cases why <;> first | rfl | exact absurd rfl hwhy
  | illFormed hread hno => exact packageVersion_illFormed hread hno
  | versionless hdocument hno =>
    rw [packageVersion_document hdocument]
    simp only

theorem OddPackage.packageVersion_eq {e : VersionError} (h : OddPackage files directory e) :
    packageVersion files binary directory = .error e := by
  cases h with
  | tooLong hread =>
    unfold packageVersion
    rw [packageFile] at hread
    rw [hread]
  | @notObject document hdocument hno =>
    rw [packageVersion_document hdocument]
    cases document with
    | obj members => exact absurd rfl (hno members)
    | null | bool | num | str | arr => rfl

/-- Each package file is of one of these kinds. -/
theorem package_cases (files : Files) (binary directory : Path) :
    (∃ shown, GivesVersion files binary directory shown) ∨ PassedOver files directory ∨
      ∃ e, OddPackage files directory e := by
  cases hread : files.read (packageFile directory) with
  | error why =>
    by_cases hlong : why = .nameTooLong
    · subst hlong
      exact .inr (.inr ⟨_, .tooLong hread⟩)
    · exact .inr (.inl (.unreadable hread hlong))
  | ok octets =>
    by_cases hdocument : ∃ document, PackageDocument files directory document
    · obtain ⟨document, hdocument⟩ := hdocument
      by_cases hobject : ∃ members, document = .obj members
      · obtain ⟨members, rfl⟩ := hobject
        by_cases hversion : ∃ version, members.lookup "version" = some (.str version)
        · obtain ⟨version, hversion⟩ := hversion
          exact .inl ⟨_, .intro hdocument hversion⟩
        · exact .inr (.inl (.versionless hdocument fun version h => hversion ⟨version, h⟩))
      · exact .inr (.inr ⟨_, .notObject hdocument fun members h => hobject ⟨members, h⟩⟩)
    · exact .inr (.inl (.illFormed hread fun document h => hdocument ⟨document, h⟩))

theorem GivesVersion.of_packageVersion {shown : String}
    (h : packageVersion files binary directory = .ok (some shown)) :
    GivesVersion files binary directory shown := by
  obtain ⟨shown', hgives⟩ | hpassed | ⟨e, hodd⟩ := package_cases files binary directory
  · obtain rfl := Option.some.inj (Except.ok.inj (hgives.packageVersion_eq.symm.trans h))
    exact hgives
  · cases hpassed.packageVersion_eq.symm.trans h
  · cases hodd.packageVersion_eq.symm.trans h

end Packages

/-! ## The search upwards -/

def Path.above (p : Path) (steps : Nat) : Path :=
  Path.parent^[steps + 1] p

/-- The directories above a path that a search takes in. -/
def Path.Reaches (p : Path) (steps : Nat) : Prop :=
  steps < packageReach ∧ steps < p.parts.length

theorem Path.above_eq (p : Path) (steps : Nat) :
    p.above steps = ⟨p.anchor, p.parts.take (p.parts.length - 1 - steps)⟩ := by
  unfold Path.above
  induction steps with
  | zero => rw [Function.iterate_one, Path.parent, List.dropLast_eq_take, Nat.sub_zero]
  | succ steps ih =>
    rw [Function.iterate_succ_apply', ih, Path.parent, List.dropLast_eq_take, List.take_take,
      List.length_take]
    congr 2
    omega

theorem Path.take_ancestors (p : Path) :
    p.ancestors.take packageReach =
      (List.range (min packageReach p.parts.length)).map p.above := by
  rw [Path.ancestors, ← List.map_take, List.take_range]
  exact List.map_congr_left fun steps _ => (p.above_eq steps).symm

section Search

variable {files : Files} {binary : Path}

theorem firstVersion_passed {before rest : List Path}
    (h : ∀ directory ∈ before, PassedOver files directory) :
    firstVersion files binary (before ++ rest) = firstVersion files binary rest := by
  induction before with
  | nil => rfl
  | cons directory before ih =>
    obtain ⟨hfirst, hbefore⟩ := List.forall_mem_cons.1 h
    rw [List.cons_append, firstVersion, hfirst.packageVersion_eq]
    exact ih hbefore

theorem firstVersion_above {steps n : Nat} (hsteps : steps < n)
    (hpassed : ∀ i < steps, PassedOver files (binary.above i)) :
    ∃ rest, firstVersion files binary ((List.range n).map binary.above) =
      firstVersion files binary (binary.above steps :: rest) := by
  obtain ⟨more, rfl⟩ := Nat.exists_eq_add_of_lt hsteps
  refine ⟨(List.range' (steps + 1) more).map binary.above, ?_⟩
  have hsplit : (List.range (steps + more + 1)).map binary.above =
      (List.range steps).map binary.above ++
        binary.above steps :: (List.range' (steps + 1) more).map binary.above := by
    rw [Nat.add_assoc, List.range_eq_range', ← List.range'_append_1, List.map_append,
      Nat.zero_add, List.range'_succ, List.map_cons, List.range_eq_range']
  rw [hsplit]
  refine firstVersion_passed fun directory hdirectory => ?_
  obtain ⟨i, hi, rfl⟩ := List.mem_map.1 hdirectory
  exact hpassed i (List.mem_range.1 hi)

/-- The first package file on the way that is not passed over decides the search. -/
theorem search_eq {steps : Nat} (hreach : binary.Reaches steps)
    (hpassed : ∀ i < steps, PassedOver files (binary.above i))
    {result : Except VersionError (Option String)} (hresult : result ≠ .ok none)
    (h : packageVersion files binary (binary.above steps) = result) :
    firstVersion files binary (binary.ancestors.take packageReach) = result := by
  obtain ⟨rest, hrest⟩ := firstVersion_above (Nat.lt_min.2 hreach) hpassed
  rw [Path.take_ancestors, hrest, firstVersion, h]
  match result, hresult with
  | .error e, _ => rfl
  | .ok (some shown), _ => rfl

theorem search_nothing (h : ∀ steps, binary.Reaches steps → PassedOver files (binary.above steps)) :
    firstVersion files binary (binary.ancestors.take packageReach) = .ok none := by
  rw [Path.take_ancestors,
    ← List.append_nil ((List.range (min packageReach binary.parts.length)).map binary.above)]
  refine firstVersion_passed fun directory hdirectory => ?_
  obtain ⟨steps, hsteps, rfl⟩ := List.mem_map.1 hdirectory
  exact h steps (Nat.lt_min.1 (List.mem_range.1 hsteps))

/-- A search passes everything over, or there is a first package file that it does not. -/
theorem search_cases (files : Files) (binary : Path) :
    (∀ steps, binary.Reaches steps → PassedOver files (binary.above steps)) ∨
      ∃ steps, binary.Reaches steps ∧ (∀ i < steps, PassedOver files (binary.above i)) ∧
        ¬ PassedOver files (binary.above steps) := by
  by_cases h : ∃ steps, binary.Reaches steps ∧ ¬ PassedOver files (binary.above steps)
  · classical
    obtain ⟨hreach, hnot⟩ := Nat.find_spec h
    refine .inr ⟨Nat.find h, hreach, fun i hi => ?_, hnot⟩
    by_contra hpassed
    exact Nat.find_min h hi
      ⟨⟨Nat.lt_trans hi hreach.1, Nat.lt_trans hi hreach.2⟩, hpassed⟩
  · refine .inl fun steps hreach => ?_
    by_contra hnot
    exact h ⟨steps, hreach, hnot⟩

end Search

theorem Path.isAbsolute_ofString_text (base p : Path) :
    (Path.ofString (Path.resolve base p).text).isAbsolute = true := by
  have htext : (Path.resolve base p).text =
      "/" ++ "/".intercalate (Path.resolve base p).parts := by
    rw [Path.text, if_neg]
    · rfl
    · exact fun hroot => absurd hroot.1 (by decide : "/" ≠ "")
  have hslash : (Path.resolve base p).text.toList =
      '/' :: ("/".intercalate (Path.resolve base p).parts).toList := by
    rw [htext, String.toList_append]
    rfl
  rw [Path.isAbsolute, Path.ofString, hslash]
  simp only
  split
  · rfl
  · rfl
  · rfl
  · next hother => exact absurd rfl (hother _)

namespace Host

variable {τ : Type} {h : Host τ} {cmd program : String}

/-! ## What the helpers are asked -/

theorem consult_of_nul {helpers : List (String × HelperRun)} (hnul : '\x00' ∈ program.toList) :
    consult helpers program = .error (.file .badPath) := by
  exact if_pos (Text.holdsNul_iff.2 hnul)

theorem consult_of_told {helpers : List (String × HelperRun)} {p : Probe}
    (hnul : '\x00' ∉ program.toList) (htold : helpers.lookup program = some (.told p)) :
    consult helpers program = .ok p := by
  rw [consult, if_neg (mt Text.holdsNul_iff.1 hnul), htold]

theorem consult_of_unlisted {helpers : List (String × HelperRun)}
    (hnul : '\x00' ∉ program.toList) (hnone : helpers.lookup program = none) :
    consult helpers program = .ok .notRun := by
  rw [consult, if_neg (mt Text.holdsNul_iff.1 hnul), hnone]

theorem consult_of_undecodable {helpers : List (String × HelperRun)}
    (hnul : '\x00' ∉ program.toList) (hodd : helpers.lookup program = some .undecodable) :
    consult helpers program = .error .undecodable := by
  rw [consult, if_neg (mt Text.holdsNul_iff.1 hnul), hodd]

theorem eq_of_not_isAbsolute {files : Files} (hprogram : files.executable cmd = .ok program)
    (hname : (Path.ofString program).isAbsolute = false) : program = cmd := by
  unfold Files.executable at hprogram
  split at hprogram
  · exact (Except.ok.inj hprogram).symm
  split at hprogram
  · cases hresolve : files.resolve (Path.ofString cmd) with
    | error why =>
      rw [hresolve] at hprogram
      cases hprogram
    | ok p =>
      rw [hresolve] at hprogram
      obtain rfl := Except.ok.inj hprogram
      unfold Files.resolve at hresolve
      split at hresolve
      · cases hresolve
      · obtain rfl := Except.ok.inj hresolve
        rw [Path.isAbsolute_ofString_text] at hname
        cases hname
  · exact (Except.ok.inj hprogram).symm

/-! ## The version of a server -/

/-- A program that can be asked for its version, and what comes of it if it is run. -/
structure Asked (h : Host τ) (cmd program : String) (p : Probe) : Prop where
  found : h.files.executable cmd = .ok program
  no_nul : '\x00' ∉ program.toList
  run : h.versions.lookup program = some (.told p) ∨
    h.versions.lookup program = none ∧ p = .notRun

/-- A command whose program has no answer: what is known of it is where it is. -/
def Unanswered (h : Host τ) (cmd program : String) : Prop :=
  ∃ p, h.Asked cmd program p ∧ p.Silent

/-- Where the executable of a command is looked for: a path is where it leads, a name has to be
found. -/
inductive StandsAt (h : Host τ) (cmd program : String) : Option String → Prop
  | path : (Path.ofString program).isAbsolute = true → h.StandsAt cmd program (some program)
  | found {p : Probe} {place : String} : (Path.ofString program).isAbsolute = false →
    h.lookups.lookup cmd = some (.told p) → p.Locates place → h.StandsAt cmd program (some place)
  | nowhere {p : Probe} : (Path.ofString program).isAbsolute = false →
    h.lookups.lookup cmd = some (.told p) → (∀ place, ¬ p.Locates place) →
    h.StandsAt cmd program none
  | unlisted : (Path.ofString program).isAbsolute = false → h.lookups.lookup cmd = none →
    h.StandsAt cmd program none

/-- A command that is asked for by its package, above this executable. -/
structure LooksAbove (h : Host τ) (cmd : String) (binary : Path) : Prop where
  unanswered : ∃ program place, h.Unanswered cmd program ∧
    h.StandsAt cmd program (some place) ∧ h.files.resolve (Path.ofString place) = .ok binary

/-- The version that a command has: the line that its program answers; or what the nearest package
above its executable gives; or that it is unknown. -/
inductive Detects (h : Host τ) (cmd : String) : String → Prop
  | answered {program line : String} {p : Probe} : h.Asked cmd program p → p.Answers line →
    Detects h cmd line
  | packaged {binary : Path} {steps : Nat} {shown : String} : h.LooksAbove cmd binary →
    binary.Reaches steps → (∀ i < steps, PassedOver h.files (binary.above i)) →
    GivesVersion h.files binary (binary.above steps) shown → Detects h cmd shown
  | nowhere {program : String} : h.Unanswered cmd program → h.StandsAt cmd program none →
    Detects h cmd "unknown"
  | packageless {binary : Path} : h.LooksAbove cmd binary →
    (∀ steps, binary.Reaches steps → PassedOver h.files (binary.above steps)) →
    Detects h cmd "unknown"

/-- How asking for a version breaks off: there is a null character in the path of the command, in
the program or in the path of its executable; a helper prints what is no text; or the first package
file that is not passed over is odd. -/
inductive BreaksOff (h : Host τ) (cmd : String) : VersionError → Prop
  | command : h.files.executable cmd = .error .badPath → BreaksOff h cmd (.file .badPath)
  | program {program : String} : h.files.executable cmd = .ok program →
    '\x00' ∈ program.toList → BreaksOff h cmd (.file .badPath)
  | version {program : String} : h.files.executable cmd = .ok program →
    '\x00' ∉ program.toList → h.versions.lookup program = some .undecodable →
    BreaksOff h cmd .undecodable
  | lookup {program : String} : h.Unanswered cmd program →
    (Path.ofString program).isAbsolute = false → h.lookups.lookup cmd = some .undecodable →
    BreaksOff h cmd .undecodable
  | place {program place : String} : h.Unanswered cmd program →
    h.StandsAt cmd program (some place) →
    Files.holdsNul (h.files.base.join (Path.ofString place)) = true →
    BreaksOff h cmd (.file .badPath)
  | package {binary : Path} {steps : Nat} {e : VersionError} : h.LooksAbove cmd binary →
    binary.Reaches steps → (∀ i < steps, PassedOver h.files (binary.above i)) →
    OddPackage h.files (binary.above steps) e → BreaksOff h cmd e

theorem Asked.shownVersion?_eq {p : Probe} (ha : h.Asked cmd program p) :
    h.shownVersion? program = .ok p.shownLine? := by
  unfold shownVersion?
  obtain htold | ⟨hnone, rfl⟩ := ha.run
  · rw [consult_of_told ha.no_nul htold]
    rfl
  · rw [consult_of_unlisted ha.no_nul hnone]
    rfl

/-- Every program that is handed over is asked, unless what it prints is no text. -/
theorem asked_or_undecodable (hprogram : h.files.executable cmd = .ok program)
    (hnul : '\x00' ∉ program.toList) :
    (∃ p, h.Asked cmd program p) ∨ h.versions.lookup program = some .undecodable := by
  cases hrun : h.versions.lookup program with
  | none => exact .inl ⟨_, hprogram, hnul, .inr ⟨hrun, rfl⟩⟩
  | some run =>
    cases run with
    | told p => exact .inl ⟨p, hprogram, hnul, .inl hrun⟩
    | undecodable => exact .inr rfl

theorem Unanswered.cmd_no_nul (hu : h.Unanswered cmd program)
    (hname : (Path.ofString program).isAbsolute = false) : '\x00' ∉ cmd.toList := by
  obtain ⟨p, hasked, -⟩ := hu
  obtain rfl := eq_of_not_isAbsolute hasked.found hname
  exact hasked.no_nul

theorem StandsAt.locate_eq {place : Option String} (hu : h.Unanswered cmd program)
    (hs : h.StandsAt cmd program place) : h.locate cmd program = .ok place := by
  cases hs with
  | path hpath => exact if_pos hpath
  | found hname htold hlocates =>
    rw [locate, if_neg (Bool.eq_false_iff.1 hname), find?,
      consult_of_told (hu.cmd_no_nul hname) htold]
    exact congrArg _ (Probe.location?_eq_some_iff.2 hlocates)
  | nowhere hname htold hno =>
    rw [locate, if_neg (Bool.eq_false_iff.1 hname), find?,
      consult_of_told (hu.cmd_no_nul hname) htold]
    refine congrArg _ (Option.eq_none_iff_forall_ne_some.2 fun place hplace => ?_)
    exact hno place (Probe.location?_eq_some_iff.1 hplace)
  | unlisted hname hnone =>
    rw [locate, if_neg (Bool.eq_false_iff.1 hname), find?,
      consult_of_unlisted (hu.cmd_no_nul hname) hnone]
    rfl

/-- Every command without an answer stands somewhere or nowhere, unless what the look-up prints is
no text. -/
theorem standsAt_or_undecodable (h : Host τ) (cmd program : String) :
    (∃ place, h.StandsAt cmd program place) ∨
      (Path.ofString program).isAbsolute = false ∧ h.lookups.lookup cmd = some .undecodable := by
  cases hname : (Path.ofString program).isAbsolute with
  | true => exact .inl ⟨_, .path hname⟩
  | false =>
    cases hrun : h.lookups.lookup cmd with
    | none => exact .inl ⟨_, .unlisted hname hrun⟩
    | some run =>
      cases run with
      | undecodable => exact .inr ⟨rfl, rfl⟩
      | told p =>
        by_cases hfound : ∃ place, p.Locates place
        · obtain ⟨place, hplace⟩ := hfound
          exact .inl ⟨_, .found hname hrun hplace⟩
        · exact .inl ⟨_, .nowhere hname hrun (not_exists.1 hfound)⟩

theorem Unanswered.versionOf_eq (hu : h.Unanswered cmd program) :
    h.versionOf cmd = h.locate cmd program >>= fun place =>
      place.elim (.ok "unknown") fun place => (h.packagedVersion place).map (·.getD "unknown") := by
  obtain ⟨p, hasked, hsilent⟩ := hu
  unfold versionOf
  rw [hasked.found]
  change (h.shownVersion? program >>= _) = _
  rw [hasked.shownVersion?_eq, Probe.shownLine?_of_silent hsilent]
  change (h.locate cmd program >>= _) = _
  refine congrArg _ (funext fun place => ?_)
  cases place with
  | none => rfl
  | some place => cases h.packagedVersion place <;> rfl

theorem Unanswered.versionOf_of_standsAt (hu : h.Unanswered cmd program) {place : Option String}
    (hs : h.StandsAt cmd program place) :
    h.versionOf cmd = place.elim (.ok "unknown") fun place =>
      (h.packagedVersion place).map (·.getD "unknown") := by
  rw [hu.versionOf_eq, hs.locate_eq hu]
  rfl

theorem LooksAbove.versionOf_eq {binary : Path} (hl : h.LooksAbove cmd binary) :
    h.versionOf cmd = (firstVersion h.files binary (binary.ancestors.take packageReach)).map
      (·.getD "unknown") := by
  obtain ⟨program, place, hunanswered, hstands, hresolve⟩ := hl.unanswered
  rw [hunanswered.versionOf_of_standsAt hstands, Option.elim_some]
  unfold packagedVersion
  rw [hresolve]
  rfl

theorem Detects.versionOf_eq {version : String} (hd : h.Detects cmd version) :
    h.versionOf cmd = .ok version := by
  cases hd with
  | answered hasked hanswer =>
    unfold versionOf
    rw [hasked.found]
    change (h.shownVersion? _ >>= _) = _
    rw [hasked.shownVersion?_eq, Probe.shownLine?_of_answers hanswer]
    rfl
  | packaged hlooks hreach hpassed hgives =>
    rw [hlooks.versionOf_eq, search_eq hreach hpassed (by simp) hgives.packageVersion_eq]
    rfl
  | nowhere hunanswered hstands =>
    rw [hunanswered.versionOf_of_standsAt hstands, Option.elim_none]
  | packageless hlooks hpassed =>
    rw [hlooks.versionOf_eq, search_nothing hpassed]
    rfl

theorem BreaksOff.versionOf_eq {e : VersionError} (hb : h.BreaksOff cmd e) :
    h.versionOf cmd = .error e := by
  cases hb with
  | command hprogram =>
    unfold versionOf
    rw [hprogram]
    rfl
  | program hprogram hnul =>
    unfold versionOf shownVersion?
    rw [hprogram]
    change (Except.map _ (consult h.versions _) >>= _) = _
    rw [consult_of_nul hnul]
    rfl
  | version hprogram hnul hodd =>
    unfold versionOf shownVersion?
    rw [hprogram]
    change (Except.map _ (consult h.versions _) >>= _) = _
    rw [consult_of_undecodable hnul hodd]
    rfl
  | lookup hunanswered hname hodd =>
    rw [hunanswered.versionOf_eq, locate, if_neg (Bool.eq_false_iff.1 hname), find?,
      consult_of_undecodable (hunanswered.cmd_no_nul hname) hodd]
    rfl
  | place hunanswered hstands hnul =>
    rw [hunanswered.versionOf_of_standsAt hstands, Option.elim_some]
    unfold packagedVersion Files.resolve
    rw [if_pos hnul]
    rfl
  | package hlooks hreach hpassed hodd =>
    rw [hlooks.versionOf_eq, search_eq hreach hpassed (by simp) hodd.packageVersion_eq]
    rfl

theorem detects_or_breaksOff (h : Host τ) (cmd : String) :
    (∃ version, h.Detects cmd version) ∨ ∃ e, h.BreaksOff cmd e := by
  cases hprogram : h.files.executable cmd with
  | error why =>
    obtain ⟨-, rfl⟩ := Files.executable_error hprogram
    exact .inr ⟨_, .command hprogram⟩
  | ok program =>
  by_cases hnul : '\x00' ∈ program.toList
  · exact .inr ⟨_, .program hprogram hnul⟩
  obtain ⟨p, hasked⟩ | hodd := asked_or_undecodable hprogram hnul
  · by_cases hanswer : ∃ line, p.Answers line
    · obtain ⟨line, hline⟩ := hanswer
      exact .inl ⟨line, .answered hasked hline⟩
    have hunanswered : h.Unanswered cmd program := ⟨p, hasked, not_exists.1 hanswer⟩
    obtain ⟨place, hstands⟩ | ⟨hname, hodd⟩ := h.standsAt_or_undecodable cmd program
    · cases place with
      | none => exact .inl ⟨_, .nowhere hunanswered hstands⟩
      | some place =>
      cases hresolve : h.files.resolve (Path.ofString place) with
      | error why => exact .inr ⟨_, .place hunanswered hstands (Files.resolve_error hresolve).1⟩
      | ok binary =>
      have hlooks : h.LooksAbove cmd binary := ⟨program, place, hunanswered, hstands, hresolve⟩
      obtain hpassed | ⟨steps, hreach, hpassed, hnot⟩ := search_cases h.files binary
      · exact .inl ⟨_, .packageless hlooks hpassed⟩
      · obtain ⟨shown, hgives⟩ | hover | ⟨e, hodd⟩ :=
          package_cases h.files binary (binary.above steps)
        · exact .inl ⟨shown, .packaged hlooks hreach hpassed hgives⟩
        · exact absurd hover hnot
        · exact .inr ⟨e, .package hlooks hreach hpassed hodd⟩
    · exact .inr ⟨_, .lookup hunanswered hname hodd⟩
  · exact .inr ⟨_, .version hprogram hnul hodd⟩

/-- **The version of a server.**  It is found as `Detects` says, or not at all: asking for it breaks
off exactly where a path cannot be asked for, a helper prints what is no text, or the first package
file that is not passed over is odd. -/
theorem versionOf_detects (h : Host τ) (cmd : String) :
    (∀ version, h.versionOf cmd = .ok version ↔ h.Detects cmd version) ∧
    ∀ e, h.versionOf cmd = .error e ↔ h.BreaksOff cmd e := by
  constructor
  · intro version
    refine ⟨fun hok => ?_, Detects.versionOf_eq⟩
    obtain ⟨version', hdetects⟩ | ⟨e, hbreaks⟩ := detects_or_breaksOff h cmd
    · obtain rfl := Except.ok.inj (hdetects.versionOf_eq.symm.trans hok)
      exact hdetects
    · cases hbreaks.versionOf_eq.symm.trans hok
  · intro e
    refine ⟨fun herror => ?_, BreaksOff.versionOf_eq⟩
    obtain ⟨version, hdetects⟩ | ⟨e', hbreaks⟩ := detects_or_breaksOff h cmd
    · cases hdetects.versionOf_eq.symm.trans herror
    · obtain rfl := Except.error.inj (hbreaks.versionOf_eq.symm.trans herror)
      exact hbreaks

def packagedHost (package : String) : Host Rat where
  clock := 0
  files := ⟨⟨"/", []⟩, [(["bin"], .directory),
    (["bin", "package.json"], .file (Text.encodeUtf8 package.toList)),
    (["package.json"],
      .file (Text.encodeUtf8 "\x7b\"name\": \"tool\", \"version\": \"2.0\"\x7d".toList))]⟩
  lookups := [("server", .told (.finished 0 "/bin/server\n" ""))]
  now := { date := ⟨2026, 2, 13⟩ }

example : (packagedHost "[").versionOf "server" = .ok "tool 2.0" := by
  decide +kernel

/-- A package file with an array in it is not passed over, although the directory above gives a
version. -/
theorem versionOf_breaks_off :
    PackageDocument (packagedHost "[]").files ⟨"/", ["bin"]⟩ (.arr []) ∧
      GivesVersion (packagedHost "[]").files ⟨"/", ["bin", "server"]⟩ ⟨"/", []⟩ "tool 2.0" ∧
      (packagedHost "[]").versionOf "server" = .error .packageNotObject := by
  refine ⟨?_, .of_packageVersion (by decide +kernel), by decide +kernel⟩
  have hplain : Json.Plain (.arr []) := .arr (by simp)
  have hwritten : Text.unifyNewlines "[]".toList = Json.write .compact (.arr []) := by
    decide +kernel
  exact ⟨_, "[]".toList, rfl, by decide +kernel, hwritten ▸ Json.parse?_write hplain⟩

end Host

end Latency
