import Mathlib.Tactic.Common
import Latency.Tally
/-!
# Expected locations

An answer is found as expected exactly if it says something, and the first location that it says
ends in the expected file and starts on the expected line (`checkExpectation_none_iff_met`).  What a
location is read off from may be missing or of any kind: a member that does not count as present is
passed over for its older name, and what is no text counts as an empty one.
-/

namespace Latency

/-! ## What an answer says -/

namespace Json

/-- What an answer says: its result, or else its parameters, or else all of it. -/
inductive Says (answer : Json) : Json → Prop
  | result {said : Json} : answer.get? "result" = some said → Says answer said
  | params {said : Json} : answer.get? "result" = none → answer.get? "params" = some said →
    Says answer said
  | whole : answer.get? "result" = none → answer.get? "params" = none → Says answer answer

/-- The location that a value says first.  Nothing and an empty array say none. -/
inductive Locates : Json → Json → Prop
  | first {location : Json} {rest : List Json} : Locates (.arr (location :: rest)) location
  | alone {said : Json} : said ≠ .null → (∀ items, said ≠ .arr items) → Locates said said

/-- The member under a name, or under an older name where that one does not count as present. -/
inductive Offers (location : Json) (name older : String) : Json → Prop
  | named {v : Json} : location.get? name = some v → v.truthy = true → Offers location name older v
  | older {v : Json} : (∀ w, location.get? name = some w → w.truthy = false) →
    location.get? older = some v → Offers location name older v

/-- The URI of a location; one that is missing or no text counts as empty. -/
inductive HasUri (location : Json) : String → Prop
  | given {uri : String} : location.Offers "targetUri" "uri" (.str uri) → HasUri location uri
  | missing : (∀ uri, ¬ location.Offers "targetUri" "uri" (.str uri)) → HasUri location ""

inductive IsWhole : Json → Int → Prop
  | int (n : Int) : IsWhole (.int n) n
  | bool (b : Bool) : IsWhole (.bool b) b.toInt

def StartsOn (location : Json) (line : Int) : Prop :=
  ∃ range start number, location.Offers "targetRange" "range" range ∧
    range.get? "start" = some start ∧ start.get? "line" = some number ∧ number.IsWhole line

variable {answer said location : Json} {name older : String}

theorem says_locationPart (answer : Json) : answer.Says (locationPart answer) := by
  unfold locationPart
  cases hresult : answer.get? "result" with
  | some v => exact .result hresult
  | none =>
    cases hparams : answer.get? "params" with
    | some v => exact .params hresult hparams
    | none => exact .whole hresult hparams

theorem Says.eq_locationPart (h : answer.Says said) : said = locationPart answer := by
  unfold locationPart
  cases h with
  | result hresult => rw [hresult]
  | params hresult hparams => rw [hresult, hparams]; rfl
  | whole hresult hparams => rw [hresult, hparams]; rfl

theorem not_locates_null : ¬ Json.null.Locates location := by
  rintro (_ | ⟨hnull, -⟩)
  exact hnull rfl

theorem not_locates_empty : ¬ (Json.arr []).Locates location := by
  rintro (_ | ⟨-, harray⟩)
  exact harray [] rfl

theorem Locates.unique {other : Json} (h : said.Locates location) (hother : said.Locates other) :
    location = other := by
  cases h with
  | first =>
    rcases hother with _ | ⟨-, harray⟩
    · rfl
    · exact absurd rfl (harray _)
  | alone _ harray =>
    rcases hother with _ | _
    · exact absurd rfl (harray _)
    · rfl

/-! ## What a location is read off from -/

theorem Offers.firstPresent_eq {v : Json} (h : location.Offers name older v) :
    firstPresent location name older = v := by
  unfold firstPresent
  cases h with
  | named hname htruthy => simp only [hname, if_pos htruthy]
  | older hname holder =>
    split
    · next w hw => rw [if_neg (by rw [hname w hw]; decide), holder, Option.getD_some]
    · rw [holder, Option.getD_some]

/-- What is read off is there, unless it is nothing. -/
theorem offers_firstPresent (hsome : firstPresent location name older ≠ .null) :
    location.Offers name older (firstPresent location name older) := by
  have hfallback (hname : ∀ w, location.get? name = some w → w.truthy = false)
      (h : (location.get? older).getD .null ≠ .null) :
      location.Offers name older ((location.get? older).getD .null) := by
    cases holder : location.get? older with
    | some v => exact .older hname holder
    | none => exact absurd (by rw [holder]; rfl) h
  unfold firstPresent at hsome ⊢
  cases hname : location.get? name with
  | none =>
    rw [hname] at hsome
    exact hfallback (by simp [hname]) hsome
  | some v =>
    rw [hname] at hsome
    by_cases htruthy : v.truthy = true
    · simp only [if_pos htruthy]
      exact .named hname htruthy
    · simp only [if_neg htruthy] at hsome ⊢
      exact hfallback (by simpa [hname] using htruthy) hsome

theorem Offers.locationUri_eq {uri : String} (h : location.Offers "targetUri" "uri" (.str uri)) :
    locationUri location = uri := by
  rw [locationUri, h.firstPresent_eq]

theorem locationUri_of_missing (h : ∀ uri, ¬ location.Offers "targetUri" "uri" (.str uri)) :
    locationUri location = "" := by
  unfold locationUri
  split
  · next uri huri =>
    have hoffers := offers_firstPresent (by rw [huri]; nofun)
    rw [huri] at hoffers
    exact absurd hoffers (h uri)
  · rfl

theorem hasUri_iff {uri : String} : location.HasUri uri ↔ uri = locationUri location := by
  constructor
  · rintro (hgiven | hmissing)
    · exact hgiven.locationUri_eq.symm
    · exact (locationUri_of_missing hmissing).symm
  · rintro rfl
    by_cases h : ∃ uri, location.Offers "targetUri" "uri" (.str uri)
    · obtain ⟨uri, hgiven⟩ := h
      rw [hgiven.locationUri_eq]
      exact .given hgiven
    · rw [locationUri_of_missing (not_exists.1 h)]
      exact .missing (not_exists.1 h)

theorem IsWhole.equalsInt_iff {v : Json} {n line : Int} (h : v.IsWhole n) :
    v.equalsInt line = true ↔ n = line := by
  cases h with
  | int n => simp [Json.int, equalsInt, Number.equals, Number.compare?]
  | bool b =>
    rw [equalsInt, beq_iff_eq, eq_comm]
    cases b <;> rfl

/-- The first line of a location is a whole number that its range starts on. -/
theorem locationLine?_eq_some_iff {number : Json} : locationLine? location = some number ↔
    ∃ range start, location.Offers "targetRange" "range" range ∧
      range.get? "start" = some start ∧ start.get? "line" = some number ∧
      ∃ n, number.IsWhole n := by
  constructor
  · intro h
    unfold locationLine? at h
    split at h
    case h_2 => cases h
    next start hstart =>
    have hsome : firstPresent location "targetRange" "range" ≠ .null := by
      intro hnull
      rw [hnull] at hstart
      cases hstart
    have hrange := offers_firstPresent hsome
    split at h
    · next n hline =>
      obtain rfl := Option.some.inj h
      exact ⟨_, start, hrange, hstart, hline, n, .int n⟩
    · next b hline =>
      obtain rfl := Option.some.inj h
      exact ⟨_, start, hrange, hstart, hline, b.toInt, .bool b⟩
    · cases h
  · rintro ⟨range, start, hrange, hstart, hline, n, hwhole⟩
    unfold locationLine?
    rw [hrange.firstPresent_eq]
    cases hwhole with
    | int n => simp only [hstart, hline, Json.int]
    | bool b => simp only [hstart, hline]

end Json

/-! ## What is expected -/

/-- A location is where an expectation has it, as far as this says. -/
structure Expectation.MetBy (expect : Expectation) (location : Json) : Prop where
  file : ∀ file, expect.file = some file →
    ∃ uri, location.HasUri uri ∧ file.toList <:+ uri.toList
  line : ∀ line, expect.line = some line → location.StartsOn line

section Checks

variable {answer said location : Json}

theorem checkFile_eq_none_iff {expected : Option String} : checkFile location expected = none ↔
    ∀ file, expected = some file → ∃ uri, location.HasUri uri ∧ file.toList <:+ uri.toList := by
  cases expected with
  | none => simp [checkFile]
  | some file =>
    simp only [checkFile, Option.some.injEq, forall_eq', Json.hasUri_iff, exists_eq_left,
      ← List.isSuffixOf_iff_suffix]
    split <;> simp_all

theorem checkLine_eq_none_iff {expected : Option Int} : checkLine location expected = none ↔
    ∀ line, expected = some line → location.StartsOn line := by
  cases expected with
  | none => simp [checkLine]
  | some line =>
    simp only [Option.some.injEq, forall_eq']
    constructor
    · intro h
      unfold checkLine at h
      simp only at h
      split at h
      · cases h
      next number hnumber =>
      split at h
      case isFalse => cases h
      next hequals =>
      obtain ⟨range, start, hrange, hstart, hline, n, hwhole⟩ :=
        Json.locationLine?_eq_some_iff.1 hnumber
      obtain rfl := hwhole.equalsInt_iff.1 hequals
      exact ⟨range, start, number, hrange, hstart, hline, hwhole⟩
    · rintro ⟨range, start, number, hrange, hstart, hline, hwhole⟩
      have hnumber : locationLine? location = some number :=
        Json.locationLine?_eq_some_iff.2 ⟨range, start, hrange, hstart, hline, line, hwhole⟩
      simp only [checkLine, hnumber, hwhole.equalsInt_iff.2 rfl, if_true]

theorem check_eq_none_iff {expect : Expectation} :
    ((checkFile location expect.file).orElse fun _ => checkLine location expect.line) = none ↔
      expect.MetBy location := by
  have hboth : ((checkFile location expect.file).orElse fun _ =>
      checkLine location expect.line) = none ↔
      checkFile location expect.file = none ∧ checkLine location expect.line = none := by
    cases checkFile location expect.file <;> simp [Option.orElse]
  rw [hboth, checkFile_eq_none_iff, checkLine_eq_none_iff]
  exact ⟨fun h => ⟨h.1, h.2⟩, fun h => ⟨h.file, h.line⟩⟩

theorem checkExpectation_eq_none_iff {expect : Expectation} :
    checkExpectation answer expect = none ↔
      ∃ location, (locationPart answer).Locates location ∧ expect.MetBy location := by
  unfold checkExpectation
  cases hsaid : locationPart answer with
  | null => simp [Json.not_locates_null]
  | arr items =>
    cases items with
    | nil => simp [Json.not_locates_empty]
    | cons first rest =>
      simp only [check_eq_none_iff]
      constructor
      · exact fun hmet => ⟨first, .first, hmet⟩
      · rintro ⟨location, (_ | ⟨-, harray⟩), hmet⟩
        · exact hmet
        · exact absurd rfl (harray _)
  | _ =>
    simp only [check_eq_none_iff]
    constructor
    · exact fun hmet => ⟨_, .alone nofun nofun, hmet⟩
    · rintro ⟨location, (_ | _), hmet⟩
      exact hmet

/-- What is expected of a file and of a line is met where both are. -/
theorem Expectation.metBy_both {file : String} {line : Int} :
    Expectation.MetBy ⟨some file, some line⟩ location ↔
      Expectation.MetBy ⟨some file, none⟩ location ∧
        Expectation.MetBy ⟨none, some line⟩ location :=
  ⟨fun h => ⟨⟨h.file, nofun⟩, ⟨nofun, h.line⟩⟩, fun h => ⟨h.1.file, h.2.line⟩⟩

/-- **Expected locations.**  An answer is as expected exactly if the first location that it says is
where the expectation has it.  So a file and a line are found as expected exactly if each of them
is, and an answer that says nothing, or no location, is never as expected. -/
theorem checkExpectation_none_iff_met (answer : Json) :
    (∀ expect, checkExpectation answer expect = none ↔
      ∃ said location, answer.Says said ∧ said.Locates location ∧ expect.MetBy location) ∧
    (∀ file line, checkExpectation answer ⟨some file, some line⟩ = none ↔
      checkExpectation answer ⟨some file, none⟩ = none ∧
        checkExpectation answer ⟨none, some line⟩ = none) ∧
    (answer.Says .null ∨ answer.Says (.arr []) →
      ∀ expect, checkExpectation answer expect ≠ none) := by
  refine ⟨fun expect => ?_, fun file line => ?_, fun hsays expect hcheck => ?_⟩
  · rw [checkExpectation_eq_none_iff]
    constructor
    · rintro ⟨location, hlocates, hmet⟩
      exact ⟨_, location, Json.says_locationPart answer, hlocates, hmet⟩
    · rintro ⟨said, location, hsays, hlocates, hmet⟩
      exact ⟨location, hsays.eq_locationPart ▸ hlocates, hmet⟩
  · simp only [checkExpectation_eq_none_iff, Expectation.metBy_both]
    constructor
    · rintro ⟨location, hlocates, hfile, hline⟩
      exact ⟨⟨location, hlocates, hfile⟩, location, hlocates, hline⟩
    · rintro ⟨⟨location, hlocates, hfile⟩, other, hother, hline⟩
      obtain rfl := hlocates.unique hother
      exact ⟨location, hlocates, hfile, hline⟩
  · obtain ⟨location, hlocates, -⟩ := checkExpectation_eq_none_iff.1 hcheck
    rcases hsays with hnull | hempty
    · exact Json.not_locates_null (hnull.eq_locationPart ▸ hlocates)
    · exact Json.not_locates_empty (hempty.eq_locationPart ▸ hlocates)

/-- An answer with two locations.  The first one has newer names that do not count as present, and
starts on a line that is a truth value. -/
def mixedAnswer : Json :=
  .obj [("id", .int 2), ("result", .arr [
    .obj [("targetUri", .str ""), ("uri", .str "file:///p/SafeCast.sol"), ("targetRange", .obj []),
      ("range", .obj [("start", .obj [("line", .bool true)])])],
    .null])]

/-- An answer whose result is empty, whatever its parameters say. -/
def emptyAnswer : Json :=
  .obj [("params", mixedAnswer), ("result", .arr [])]

theorem checkExpectation_none_iff_met_mixed :
    (∃ said location, mixedAnswer.Says said ∧ said.Locates location ∧
      Expectation.MetBy ⟨some "SafeCast.sol", some 1⟩ location) ∧
    emptyAnswer.Says (.arr []) ∧ checkExpectation emptyAnswer {} ≠ none := by
  have hempty : emptyAnswer.Says (.arr []) := .result rfl
  exact ⟨((checkExpectation_none_iff_met mixedAnswer).1 _).1 (by decide +kernel), hempty,
    (checkExpectation_none_iff_met emptyAnswer).2.2 (.inr hempty) {}⟩

end Checks

end Latency
