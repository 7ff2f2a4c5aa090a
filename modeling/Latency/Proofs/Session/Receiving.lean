import Mathlib.Tactic.Common
import Latency.Session.Wait
/-!
# What receiving leaves alone

While a session waits, its queue, its clock and its notes change, and arrivals are taken from its
process.  The ids it gives to its requests do not change, and its process is otherwise what it was
(`Receives`).
-/

namespace Latency.Session

variable {τ : Type}

/-- A session that has done nothing but receive. -/
structure Receives (s t : Session τ) : Prop where
  nextId_eq : t.nextId = s.nextId
  process_eq : ∃ arrivals, t.process = { s.process with pending := arrivals }

namespace Receives

theorem refl (s : Session τ) : Receives s s :=
  ⟨rfl, s.process.pending, rfl⟩

theorem trans {s t u : Session τ} (h : Receives s t) (h' : Receives t u) : Receives s u := by
  obtain ⟨arrivals, hprocess⟩ := h.process_eq
  obtain ⟨arrivals', hprocess'⟩ := h'.process_eq
  exact ⟨h'.nextId_eq.trans h.nextId_eq, arrivals', by rw [hprocess', hprocess]⟩

theorem of_eq {α : Type} {s next : Session τ} {x : α × Session τ} {result : α}
    (h : Receives s x.2) (hx : x = (result, next)) : Receives s next := by
  rw [hx] at h
  exact h

end Receives

/-! ## One message -/

theorem note_receives (line : String) (s : Session τ) : Receives s (s.note line) := by
  unfold note
  split
  · exact ⟨rfl, s.process.pending, rfl⟩
  · exact .refl s

theorem notes_receives (f : Json → String) (ms : List Json) (s : Session τ) :
    Receives s (ms.foldl (fun acc m => acc.note (f m)) s) := by
  induction ms generalizing s with
  | nil => exact .refl s
  | cons m ms ih => exact (note_receives (f m) s).trans (ih _)

theorem settle_receives (s : Session τ) : Receives s s.settle := by
  have hpipe : Receives s { s with pipe := s.pipe.settle.1 } := ⟨rfl, s.process.pending, rfl⟩
  exact hpipe.trans (notes_receives (decodedLine s.label) s.pipe.settle.2 _)

theorem observe_receives (m : Json) (s : Session τ) : Receives s (s.observe m) := by
  unfold observe
  split
  · exact ⟨rfl, s.process.pending, rfl⟩
  · exact .refl s

theorem takeQueued?_receives {s next : Session τ} {item : Item}
    (h : s.takeQueued? = some (item, next)) : Receives s next := by
  unfold takeQueued? at h
  split at h
  · cases h
  · next pipe _ =>
    obtain ⟨-, rfl⟩ := Prod.mk.inj (Option.some.inj h)
    have hpipe : Receives s { s with pipe := pipe } := ⟨rfl, s.process.pending, rfl⟩
    exact hpipe.trans (settle_receives _)

variable [Clock τ]

theorem deliver_receives (time : τ) (a : Arrival) (rest : List (τ × Arrival)) (s : Session τ) :
    Receives s (s.deliver time a rest) := by
  have harrived : Receives s
      { s with
        clock := Clock.latest s.clock time
        process := { s.process with pending := rest }
        pipe := feedArrival a s.pipe } :=
    ⟨rfl, rest, rfl⟩
  exact harrived.trans (settle_receives _)

theorem awaitItem_receives (deadline : τ) (s : Session τ) (arrivals : List (τ × Arrival)) :
    Receives s (s.awaitItem deadline arrivals).2 := by
  have hlater (s : Session τ) : Receives s { s with clock := Clock.latest s.clock deadline } :=
    ⟨rfl, s.process.pending, rfl⟩
  induction arrivals generalizing s with
  | nil =>
    unfold awaitItem
    split
    · next htake => exact takeQueued?_receives htake
    · exact hlater s
  | cons arrival rest ih =>
    obtain ⟨time, a⟩ := arrival
    unfold awaitItem
    split
    · next htake => exact takeQueued?_receives htake
    · split
      · exact (deliver_receives time a rest s).trans (ih _)
      · exact hlater s

theorem receive_receives (timeout : τ) (s : Session τ) : Receives s (s.receive timeout).2 := by
  unfold receive
  split
  · exact .refl s
  · have hawait := awaitItem_receives (Clock.add s.clock timeout) s.settle s.process.pending
    have htaken := (settle_receives s).trans hawait
    exact ⟨htaken.nextId_eq, htaken.process_eq⟩

/-! ## The two waits -/

theorem readUntil_receives (id : Json) (deadline : τ) (s : Session τ) :
    Receives s (s.readUntil id deadline).2 := by
  fun_induction readUntil id deadline s with
  | case1 s => exact .refl s
  | case2 s _ _ _ next hreceive => exact (receive_receives _ s).of_eq hreceive
  | case3 s _ _ _ next hreceive => exact (receive_receives _ s).of_eq hreceive
  | case4 s _ _ m next hreceive _ ih =>
    have hnext := (receive_receives _ s).of_eq hreceive
    exact (hnext.trans (observe_receives m next)).trans ih

theorem readResponse_receives (id : Json) (timeout : τ) (s : Session τ) :
    Receives s (s.readResponse id timeout).2 := by
  unfold readResponse
  split
  · exact readUntil_receives id _ s
  · exact .refl s

theorem diagnosticsUntil_receives (start deadline : τ) (retries : Nat)
    (last : Option (Diagnostics τ)) (s : Session τ) :
    Receives s (s.diagnosticsUntil start deadline retries last).2 := by
  fun_induction diagnosticsUntil start deadline retries last s with
  | case1 _ _ s => exact .refl s
  | case2 _ s _ _ next hreceive => exact (receive_receives _ s).of_eq hreceive
  | case3 _ s _ _ next hreceive _ ih => exact ((receive_receives _ s).of_eq hreceive).trans ih
  | case4 _ _ s _ _ _ _ _ hreceive => exact (receive_receives _ s).of_eq hreceive
  | case5 _ _ s _ _ m next hreceive _ ih =>
    have hnext := (receive_receives _ s).of_eq hreceive
    exact (hnext.trans (observe_receives m next)).trans ih
  | case6 _ _ s _ _ _ next hreceive => exact (receive_receives _ s).of_eq hreceive
  | case7 _ _ s _ _ _ next hreceive _ _ _ _ ih =>
    exact ((receive_receives _ s).of_eq hreceive).trans ih

theorem waitForDiagnostics_receives (timeout : τ) (s : Session τ) :
    Receives s (s.waitForDiagnostics timeout).2 := by
  unfold waitForDiagnostics
  split
  · exact diagnosticsUntil_receives _ _ _ _ s
  · exact .refl s

end Latency.Session
