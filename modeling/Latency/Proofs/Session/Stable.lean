import Latency.Proofs.Server.Teardown
import Latency.Proofs.Session.Plan
/-!
# What a session leaves alone

Every step of a session reaches its process through a few operations: it takes arrivals from it,
polls it, looks at its memory and writes to it.  So a property that these keep (`Process.Stable`) is
kept by every run of a session.
-/

namespace Latency.Session

variable {τ : Type} [Clock τ] {I : Process τ → Prop} {s t : Session τ}

theorem Receives.stable (h : Receives s t) (hI : Process.Stable I) (hs : I s.process) :
    I t.process := by
  obtain ⟨arrivals, hprocess⟩ := h.process_eq
  rw [hprocess]
  exact hI.pending s.process arrivals hs

theorem write_stable {method : String} {m : Json} {result : Except SessionError Unit}
    (h : s.write method m = (result, t)) (hI : Process.Stable I) (hs : I s.process) :
    I t.process := by
  have hnoted := (note_receives ("[" ++ s.label ++ " ->] " ++ method) s).stable hI hs
  have hwritten := hI.write _ (s.note ("[" ++ s.label ++ " ->] " ++ method)).clock m hnoted
  unfold write at h
  simp only at h
  split at h
  all_goals
    next hwrite =>
    obtain ⟨-, rfl⟩ := Prod.mk.inj h
    rw [hwrite] at hwritten
    exact hwritten

theorem Step.stable {o : Option Exchange} (h : Step s o t) (hI : Process.Stable I)
    (hs : I s.process) : I t.process := by
  cases h with
  | write hwrite => exact write_stable hwrite hI hs
  | notWritten hwrite => exact write_stable hwrite hI hs
  | answer hanswer => exact ((readResponse_receives _ _ s).of_eq hanswer).stable hI hs
  | notAnswered hanswer => exact ((readResponse_receives _ _ s).of_eq hanswer).stable hI hs
  | index hwait => exact ((waitForDiagnostics_receives _ s).of_eq hwait).stable hI hs
  | notIndexed hwait => exact ((waitForDiagnostics_receives _ s).of_eq hwait).stable hI hs
  | count => exact hs
  | look => exact hI.residentMemory s.clock hs

theorem Run.stable {es : List Exchange} (h : Run s es t) (hI : Process.Stable I)
    (hs : I s.process) : I t.process := by
  induction h with
  | done s => exact hs
  | silent hstep _ ih => exact ih (hstep.stable hI hs)
  | exchange hstep _ ih => exact ih (hstep.stable hI hs)

theorem Plays.stable {plan : List Move} (h : Plays plan s t) (hI : Process.Stable I)
    (hs : I s.process) : I t.process := by
  obtain ⟨es, hrun, -⟩ := h
  exact hrun.stable hI hs

end Latency.Session
