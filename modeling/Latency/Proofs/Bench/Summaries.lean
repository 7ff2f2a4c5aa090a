import Latency.Bench.Requests
import Latency.Proofs.Lists
/-!
# What is kept of an answer

A sample holds the time, the response as it came and what the response is summed up to: the message
of an error, else the result, else the parameters of a notification, cut to the limit.  `SumsUp`
says this by the members of the response, and `Sample.IsOf` says it of a sample.
-/

namespace Latency

variable {τ : Type} {limit : Nat} {response value summary : Json}

/-- What a limit leaves of a value: all of it, or the beginning of its compact text if that is
longer.  A limit of 0 is none. -/
inductive Shortened (limit : Nat) (value : Json) : Json → Prop where
  | whole : limit = 0 ∨ (Json.write .plain value).length ≤ limit → Shortened limit value value
  | cut : 0 < limit → limit < (Json.write .plain value).length →
      Shortened limit value
        (.str (String.ofList ((Json.write .plain value).take limit ++ ['.', '.', '.'])))

inductive SumsUp (limit : Nat) (response : Json) : Json → Prop where
  | message {error : Json} {text : String} : response.get? "error" = some error →
      error.get? "message" = some (.str text) →
        SumsUp limit response (.obj [("error", .str text)])
  | unknown {error : Json} : response.get? "error" = some error →
      (∀ text, error.get? "message" ≠ some (.str text)) →
        SumsUp limit response (.obj [("error", .str "unknown")])
  | result {value summary : Json} : response.get? "error" = none →
      response.get? "result" = some value → Shortened limit value summary →
        SumsUp limit response summary
  | params {value summary : Json} : response.get? "error" = none →
      response.get? "result" = none → response.get? "params" = some value →
        Shortened limit value summary → SumsUp limit response summary
  | nothing : response.get? "error" = none → response.get? "result" = none →
      response.get? "params" = none → SumsUp limit response .null

theorem shortened_iff : Shortened limit value summary ↔ summary = shorten limit value := by
  constructor
  · rintro (hwhole | ⟨hpos, hlong⟩)
    · unfold shorten
      split
      · rfl
      · next hlimit => exact (if_neg (Nat.not_lt.2 (hwhole.resolve_left hlimit))).symm
    · rw [shorten, if_neg (Nat.ne_of_gt hpos), if_pos hlong]
      rfl
  · rintro rfl
    unfold shorten
    split
    · next hlimit => exact .whole (.inl hlimit)
    · next hlimit =>
      by_cases hlong : limit < (Json.write .plain value).length
      · simp only [if_pos hlong]
        exact .cut (Nat.pos_of_ne_zero hlimit) hlong
      · simp only [if_neg hlong]
        exact .whole (.inr (Nat.le_of_not_lt hlong))

theorem sumsUp_responseSummary (limit : Nat) (response : Json) :
    SumsUp limit response (responseSummary limit response) := by
  unfold responseSummary
  cases herror : response.get? "error" with
  | some error =>
    simp only [errorSummary]
    split
    · next hmessage => exact .message herror hmessage
    · next hmessage => exact .unknown herror hmessage
  | none =>
    cases hresult : response.get? "result" with
    | some value => exact .result herror hresult (shortened_iff.2 rfl)
    | none =>
      cases hparams : response.get? "params" with
      | some value => exact .params herror hresult hparams (shortened_iff.2 rfl)
      | none => exact .nothing herror hresult hparams

theorem SumsUp.eq (h : SumsUp limit response summary) :
    summary = responseSummary limit response := by
  unfold responseSummary
  cases h with
  | message herror hmessage => simp only [herror, errorSummary, hmessage]
  | @unknown error herror hmessage =>
    rw [herror]
    change _ = errorSummary error
    unfold errorSummary
    split
    · next text htext => exact absurd htext (hmessage text)
    · rfl
  | result herror hresult hshort => simp only [herror, hresult, shortened_iff.1 hshort]
  | params herror hresult hparams hshort =>
    simp only [herror, hresult, hparams, shortened_iff.1 hshort]
  | nothing herror hresult hparams => simp only [herror, hresult, hparams]

structure Sample.IsOf (limit : Nat) (answer : Json × τ) (sample : Sample τ) : Prop where
  raw : sample.raw = some answer.1
  ms : sample.ms = answer.2
  response : SumsUp limit answer.1 sample.response

theorem Sample.isOf_iff {answer : Json × τ} {sample : Sample τ} :
    Sample.IsOf limit answer sample ↔ sample = responseSample limit answer.1 answer.2 := by
  constructor
  · rintro ⟨hraw, hms, hresponse⟩
    cases sample with
    | mk ms response raw =>
      obtain rfl : ms = answer.2 := hms
      obtain rfl : raw = some answer.1 := hraw
      obtain rfl : response = responseSummary limit answer.1 := hresponse.eq
      rfl
  · rintro rfl
    exact ⟨rfl, rfl, sumsUp_responseSummary limit answer.1⟩

theorem Sample.forall₂_isOf_iff {answers : List (Json × τ)} {samples : List (Sample τ)} :
    List.Forall₂ (Sample.IsOf limit) answers samples ↔
      samples = answers.map fun answer => responseSample limit answer.1 answer.2 := by
  exact forall₂_iff_eq_map fun _ _ => Sample.isOf_iff

end Latency
