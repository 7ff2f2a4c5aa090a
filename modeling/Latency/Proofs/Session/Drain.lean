import Latency.Proofs.Session.Receiving
import Latency.Proofs.Session.Incoming
/-!
# What a wait takes and what it logs

Whatever its clock, a wait takes items from the front of what is ahead of its session, and leaves
the others there.  Of the messages that it took, those that are logged are logged in their order,
each once, whichever of the two waits took them and however it ended (`readResponse_drains`,
`waitForDiagnostics_drains`): a message that ends a wait is never one that is logged.
-/

namespace Latency.Session

variable {τ : Type} [Clock τ]

def stream (s : Session τ) : List Item :=
  s.ahead.map Prod.snd

/-- When arrivals are taken makes no difference to what they bring. -/
theorem map_snd_incomingFrom (now now' : τ) (p : Pipeline) (arrivals : List (τ × Arrival)) :
    (incomingFrom now p arrivals).map Prod.snd = (incomingFrom now' p arrivals).map Prod.snd := by
  induction arrivals generalizing now now' p with
  | nil => rfl
  | cons arrival rest ih =>
    obtain ⟨time, a⟩ := arrival
    simp only [incomingFrom]
    split
    · rfl
    · simp only [List.map_append, List.map_map, Function.comp_def]
      rw [ih (Clock.latest now time) (Clock.latest now' time)]

theorem stream_eq (s : Session τ) :
    s.stream = s.pipe.upcoming ++ (incomingFrom s.clock s.pipe s.process.pending).map Prod.snd := by
  rw [stream, ahead, List.map_append, List.map_map]
  simp [Function.comp_def]

theorem stream_later (s : Session τ) (clock : τ) : { s with clock := clock }.stream = s.stream := by
  rw [stream_eq, stream_eq, map_snd_incomingFrom clock s.clock]

theorem stream_settle (s : Session τ) : s.settle.stream = s.stream := by
  rw [stream, ahead_settle, stream]

theorem stream_observe (m : Json) (s : Session τ) : (s.observe m).stream = s.stream := by
  unfold observe
  split <;> rfl

omit [Clock τ] in
theorem logs_settle (s : Session τ) : s.settle.logs = s.logs := by
  obtain ⟨trace, htrace⟩ := s.settle_eq
  rw [htrace]

omit [Clock τ] in
theorem logs_observe (m : Json) (s : Session τ) :
    (s.observe m).logs = s.logs ++ (logText? m).toList := by
  unfold observe
  cases logText? m with
  | none => exact (List.append_nil _).symm
  | some text => rfl

theorem logs_deliver (time : τ) (a : Arrival) (rest : List (τ × Arrival)) (s : Session τ) :
    (s.deliver time a rest).logs = s.logs :=
  logs_settle _

/-! ## One item -/

/-- `t` is `s` without an item that was first in its stream; nothing was logged. -/
structure Takes (s : Session τ) (item : Option Item) (t : Session τ) : Prop where
  stream_eq : s.stream = item.toList ++ t.stream
  logs_eq : t.logs = s.logs

theorem takeQueued?_takes {s next : Session τ} {item : Item}
    (h : s.takeQueued? = some (item, next)) : Takes s (some item) next where
  stream_eq := by
    rw [stream, (ahead_of_takeQueued? h).1]
    rfl
  logs_eq := by
    obtain ⟨pipe, -, rfl⟩ := takeQueued?_some h
    exact logs_settle _

theorem awaitItem_takes (deadline : τ) {s : Session τ} {arrivals : List (τ × Arrival)}
    (hpending : s.process.pending = arrivals) (hidle : s.pipe.advance = none) :
    Takes s (s.awaitItem deadline arrivals).1 (s.awaitItem deadline arrivals).2 := by
  have hlater (s : Session τ) : Takes s none { s with clock := Clock.latest s.clock deadline } :=
    ⟨(stream_later s _).symm, rfl⟩
  induction arrivals generalizing s with
  | nil =>
    unfold awaitItem
    split
    · next htake => exact takeQueued?_takes htake
    · exact hlater s
  | cons arrival rest ih =>
    obtain ⟨time, a⟩ := arrival
    unfold awaitItem
    split
    · next htake => exact takeQueued?_takes htake
    · next htake =>
      split
      · have hdelivered := ih (pending_deliver s time a rest) (settle_idle _)
        have hsame : (s.deliver time a rest).stream = s.stream := by
          rw [stream, ahead_deliver hidle (queue_of_takeQueued?_none htake) hpending, stream]
        exact ⟨hsame.symm.trans hdelivered.stream_eq,
          hdelivered.logs_eq.trans (logs_deliver time a rest s)⟩
      · exact hlater s

/-- A receive takes the message it gives, and no other. -/
theorem receive_takes {timeout : τ} {s t : Session τ} {result : Except SessionError Json}
    (h : s.receive timeout = (result, t)) :
    ∃ item, Takes s item t ∧ item.bind Item.message? = result.toOption := by
  unfold receive at h
  split at h
  · obtain ⟨rfl, rfl⟩ := Prod.mk.inj h
    exact ⟨none, ⟨rfl, rfl⟩, rfl⟩
  · have hpending : s.settle.process.pending = s.process.pending := by rw [process_settle]
    have htakes := awaitItem_takes (Clock.add s.clock timeout) hpending (settle_idle s)
    simp only at h
    obtain ⟨rfl, rfl⟩ := Prod.mk.inj h
    refine ⟨_, ⟨(stream_settle s).symm.trans htakes.stream_eq,
      htakes.logs_eq.trans (logs_settle s)⟩, ?_⟩
    cases (s.settle.awaitItem (Clock.add s.clock timeout) s.process.pending).1 with
    | none => rfl
    | some item => cases item <;> rfl

/-! ## The two waits -/

def messagesIn (items : List Item) : List Json :=
  items.filterMap Item.message?

/-- `t` is `s` without items that were first in its stream, the logged ones among them logged. -/
structure Drains (s : Session τ) (taken : List Item) (t : Session τ) : Prop where
  stream_eq : s.stream = taken ++ t.stream
  logs_eq : t.logs = s.logs ++ (messagesIn taken).filterMap logText?

theorem Drains.refl (s : Session τ) : Drains s [] s where
  stream_eq := rfl
  logs_eq := (List.append_nil _).symm

theorem Drains.trans {s t u : Session τ} {front back : List Item} (h : Drains s front t)
    (h' : Drains t back u) : Drains s (front ++ back) u where
  stream_eq := by rw [h.stream_eq, h'.stream_eq, List.append_assoc]
  logs_eq := by
    rw [h'.logs_eq, h.logs_eq, List.append_assoc, messagesIn, messagesIn, messagesIn,
      List.filterMap_append, List.filterMap_append]

theorem Takes.drains_error {s t : Session τ} {item : Option Item} (h : Takes s item t)
    (hnone : item.bind Item.message? = none) : Drains s item.toList t where
  stream_eq := h.stream_eq
  logs_eq := by
    rw [h.logs_eq]
    cases item with
    | none => exact (List.append_nil _).symm
    | some item =>
      have hmessage : item.message? = none := hnone
      simp [messagesIn, hmessage]

theorem Takes.drains_ok {s t u : Session τ} {item : Option Item} {m : Json} (h : Takes s item t)
    (hsome : item.bind Item.message? = some m) (hstream : u.stream = t.stream)
    (hlogs : u.logs = t.logs ++ (logText? m).toList) : Drains s item.toList u where
  stream_eq := by rw [h.stream_eq, hstream]
  logs_eq := by
    rw [hlogs, h.logs_eq]
    cases item with
    | none => cases hsome
    | some item =>
      have hmessage : item.message? = some m := hsome
      cases htext : logText? m <;> simp [messagesIn, hmessage, htext]

theorem receive_drains_error {timeout : τ} {s t : Session τ} {e : SessionError}
    (h : s.receive timeout = (.error e, t)) : ∃ taken, Drains s taken t := by
  obtain ⟨item, htakes, hnone⟩ := receive_takes h
  exact ⟨_, htakes.drains_error hnone⟩

theorem receive_drains_ok {timeout : τ} {s t : Session τ} {m : Json}
    (h : s.receive timeout = (.ok m, t)) : ∃ taken, Drains s taken (t.observe m) := by
  obtain ⟨item, htakes, hsome⟩ := receive_takes h
  exact ⟨_, htakes.drains_ok hsome (stream_observe m t) (logs_observe m t)⟩

theorem receive_drains_last {timeout : τ} {s t : Session τ} {m : Json}
    (h : s.receive timeout = (.ok m, t)) (hlast : logText? m = none) :
    ∃ taken, Drains s taken t := by
  obtain ⟨item, htakes, hsome⟩ := receive_takes h
  refine ⟨_, htakes.drains_ok hsome rfl ?_⟩
  rw [hlast]
  exact (List.append_nil _).symm

/-- A response is nothing to be logged, since it has no method. -/
theorem logText?_of_answers {id m : Json} (h : answers id m = true) : logText? m = none := by
  have hmethod : m.get? "method" = none := by
    rw [answers, Bool.and_eq_true, Bool.not_eq_true', Json.has] at h
    simpa using h.2
  unfold logText?
  rw [hmethod]

/-- Diagnostics are nothing to be logged, since their method is another one. -/
theorem logText?_of_diagnostics {m : Json} {count : Nat} (h : diagnosticsCount? m = some count) :
    logText? m = none := by
  unfold diagnosticsCount? at h
  split at h
  · next method hmethod =>
    split at h
    · next hpublish =>
      subst hpublish
      unfold logText?
      rw [hmethod]
      rfl
    · cases h
  · cases h

theorem readUntil_drains (id : Json) (deadline : τ) (s : Session τ) :
    ∃ taken, Drains s taken (s.readUntil id deadline).2 := by
  fun_induction readUntil id deadline s with
  | case1 s => exact ⟨[], .refl s⟩
  | case2 s _ _ _ next hreceive => exact receive_drains_error hreceive
  | case3 s _ _ m next hreceive hanswers =>
    exact receive_drains_last hreceive (logText?_of_answers hanswers)
  | case4 s _ _ m next hreceive _ ih =>
    obtain ⟨front, hfront⟩ := receive_drains_ok hreceive
    obtain ⟨back, hback⟩ := ih
    exact ⟨_, hfront.trans hback⟩

theorem readResponse_drains (id : Json) (timeout : τ) (s : Session τ) :
    ∃ taken, Drains s taken (s.readResponse id timeout).2 := by
  unfold readResponse
  split
  · exact readUntil_drains id _ s
  · exact ⟨[], .refl s⟩

theorem diagnosticsUntil_drains (start deadline : τ) (retries : Nat)
    (last : Option (Diagnostics τ)) (s : Session τ) :
    ∃ taken, Drains s taken (s.diagnosticsUntil start deadline retries last).2 := by
  fun_induction diagnosticsUntil start deadline retries last s with
  | case1 _ _ s => exact ⟨[], .refl s⟩
  | case2 _ s _ _ next hreceive => exact receive_drains_error hreceive
  | case3 _ s _ _ next hreceive _ ih =>
    obtain ⟨front, hfront⟩ := receive_drains_error hreceive
    obtain ⟨back, hback⟩ := ih
    exact ⟨_, hfront.trans hback⟩
  | case4 _ _ s _ _ _ _ _ hreceive => exact receive_drains_error hreceive
  | case5 _ _ s _ _ m next hreceive _ ih =>
    obtain ⟨front, hfront⟩ := receive_drains_ok hreceive
    obtain ⟨back, hback⟩ := ih
    exact ⟨_, hfront.trans hback⟩
  | case6 _ _ s _ _ m next hreceive count hcount =>
    exact receive_drains_last hreceive (logText?_of_diagnostics hcount)
  | case7 _ _ s _ _ m next hreceive count hcount _ _ ih =>
    obtain ⟨front, hfront⟩ := receive_drains_last hreceive (logText?_of_diagnostics hcount)
    obtain ⟨back, hback⟩ := ih
    exact ⟨_, hfront.trans hback⟩

theorem waitForDiagnostics_drains (timeout : τ) (s : Session τ) :
    ∃ taken, Drains s taken (s.waitForDiagnostics timeout).2 := by
  unfold waitForDiagnostics
  split
  · exact diagnosticsUntil_drains _ _ _ _ s
  · exact ⟨[], .refl s⟩

end Latency.Session
