import Latency.Proofs.Bench.Protocol
import Latency.Proofs.Bench.Summaries
/-!
# What a request benchmark comes to

A benchmark of a request sends it again and again on one session.  `Answered` is a row of such
requests in which each was answered before the next one was sent.  The benchmark ends well when the
row is complete and all that was measured is usable, with the first measured answer that is not, or
with the failure of a request.  Of the answers in the warm-up only the number counts.
-/

namespace Latency

variable {τ : Type} [Clock τ]

/-! ## Answers in a row -/

/-- Requests that are sent one after another, each when the one before it was answered, with their
responses and the times these took. -/
inductive Answered (method : String) (params : Json) (timeout : τ) :
    Session τ → List (Json × τ) → Session τ → Prop where
  | nil (s : Session τ) : Answered method params timeout s [] s
  | cons {s t u : Session τ} {answer : Json × τ} {answers : List (Json × τ)} :
      timedRequest method params timeout s = (.ok answer, t) →
        Answered method params timeout t answers u →
          Answered method params timeout s (answer :: answers) u

def UsableFrom (warmup : Nat) (answers : List (Json × τ)) : Prop :=
  ∀ answer ∈ answers.drop warmup, isValidResponse answer.1 = true

omit [Clock τ] in
theorem UsableFrom.append {warmup : Nat} {answers : List (Json × τ)}
    (h : UsableFrom warmup answers) {answer : Json × τ}
    (hanswer : warmup ≤ answers.length → isValidResponse answer.1 = true) :
    UsableFrom warmup (answers ++ [answer]) := by
  intro x hx
  rw [List.drop_append, List.mem_append] at hx
  rcases hx with hx | hx
  · exact h x hx
  · have hlast := List.mem_of_mem_drop hx
    have hlength : 0 < ([answer].drop (warmup - answers.length)).length := List.length_pos_of_mem hx
    rw [List.length_drop, List.length_singleton] at hlength
    rw [List.mem_singleton.1 hlast]
    exact hanswer (by omega)

section Answered

variable {method : String} {params : Json} {timeout : τ} {s t u : Session τ}
  {answers : List (Json × τ)} {answer : Json × τ}

theorem Answered.snoc (h : Answered method params timeout s answers t)
    (hnext : timedRequest method params timeout t = (.ok answer, u)) :
    Answered method params timeout s (answers ++ [answer]) u := by
  induction h with
  | nil s => exact .cons hnext (.nil u)
  | cons hfirst _ ih => exact .cons hfirst (ih hnext)

theorem receive_error_cases {timeout : τ} {e : SessionError}
    (h : s.receive timeout = (.error e, t)) : e = .timeout ∨ e = .ended := by
  unfold Session.receive at h
  split at h
  · exact .inr (Except.error.inj (Prod.mk.inj h).1).symm
  · have hreceipt := (Prod.mk.inj h).1
    cases hitem : (s.settle.awaitItem (Clock.add s.clock timeout) s.process.pending).1 with
    | none =>
      rw [hitem] at hreceipt
      exact .inl (Except.error.inj hreceipt).symm
    | some item =>
      rw [hitem] at hreceipt
      cases item with
      | message m => cases hreceipt
      | ended => exact .inr (Except.error.inj hreceipt).symm

theorem readUntil_error_cases {id : Json} {deadline : τ} {e : SessionError}
    (h : (s.readUntil id deadline).1 = .error e) : e = .timeout ∨ e = .ended := by
  fun_induction Session.readUntil id deadline s with
  | case1 => exact .inl (Except.error.inj h).symm
  | case2 s _ _ e' next hreceive =>
    obtain rfl := Except.error.inj h
    exact receive_error_cases hreceive
  | case3 => cases h
  | case4 _ _ _ _ _ _ _ ih => exact ih h

theorem write_error_write {message : Json} {e : SessionError}
    (h : s.write method message = (.error e, t)) : ∃ failure, e = .write s.label failure := by
  unfold Session.write at h
  simp only at h
  split at h
  · cases (Prod.mk.inj h).1
  · next failure _ _ => exact ⟨failure, (Except.error.inj (Prod.mk.inj h).1).symm⟩

theorem send_error_write {e : SessionError} (h : s.send method params = (.error e, t)) :
    ∃ failure, e = .write s.label failure := by
  unfold Session.send at h
  simp only at h
  split at h
  · cases (Prod.mk.inj h).1
  · next hwrite =>
    obtain rfl := Except.error.inj (Prod.mk.inj h).1
    obtain ⟨failure, he⟩ := write_error_write hwrite
    exact ⟨failure, he⟩

theorem sent_of_send_ok {id : Nat} (h : s.send method params = (.ok id, t)) :
    t.process.sent = s.process.sent ++ [requestMessage s.nextId method params] := by
  unfold Session.send at h
  simp only at h
  split at h
  · next hwrite =>
    obtain ⟨-, rfl⟩ := Prod.mk.inj h
    exact (Session.write_ok hwrite).2
  · cases (Prod.mk.inj h).1

theorem request_error_cases {e : SessionError}
    (h : s.request method params timeout = (.error e, t)) :
    e = .timeout ∨ e = .ended ∨ (∃ failure, e = .write s.label failure) ∨
      e = .endless ∧ Clock.fits timeout = false := by
  unfold Session.request at h
  split at h
  · next hsend =>
    obtain rfl := Except.error.inj (Prod.mk.inj h).1
    exact .inr (.inr (.inl (send_error_write hsend)))
  unfold Session.readResponse at h
  split at h
  · rcases readUntil_error_cases (congrArg Prod.fst h) with he | he
    · exact .inl he
    · exact .inr (.inl he)
  · next hfits =>
    obtain rfl := Except.error.inj (Prod.mk.inj h).1
    exact .inr (.inr (.inr ⟨rfl, Bool.eq_false_iff.2 hfits⟩))

theorem timedRequest_error_cases (hfits : Clock.fits timeout = true) {e : SessionError}
    (h : timedRequest method params timeout s = (.error e, t)) :
    e = .timeout ∨ e = .ended ∨ ∃ failure, e = .write s.label failure := by
  unfold timedRequest at h
  split at h
  · next hrequest =>
    obtain rfl := Except.error.inj (Prod.mk.inj h).1
    rcases request_error_cases hrequest with he | he | he | ⟨-, hnone⟩
    · exact .inl he
    · exact .inr (.inl he)
    · exact .inr (.inr he)
    · rw [hfits] at hnone
      cases hnone
  · cases (Prod.mk.inj h).1

/-- A request that is answered was written under the next number, and has an answer to that. -/
theorem timedRequest_answered {answer : Json × τ}
    (h : timedRequest method params timeout s = (.ok answer, t)) :
    t.process.sent = s.process.sent ++ [requestMessage s.nextId method params] ∧
      t.nextId = s.nextId + 1 ∧ RespondsTo (.int s.nextId) answer.1 := by
  unfold timedRequest Session.request at h
  cases hsend : s.send method params with
  | mk result mid =>
    rw [hsend] at h
    cases result with
    | error e => cases (Prod.mk.inj h).1
    | ok id =>
      obtain ⟨rfl, hnext, -⟩ := Session.send_ok hsend
      simp only at h
      split at h
      · cases (Prod.mk.inj h).1
      · next response next hread =>
        obtain ⟨hanswer, rfl⟩ := Prod.mk.inj h
        obtain rfl := Except.ok.inj hanswer
        have hreceives := (Session.readResponse_receives _ timeout mid).of_eq hread
        refine ⟨?_, hreceives.nextId_eq.trans hnext, Session.readResponse_responds hread⟩
        rw [hreceives.sent_eq, sent_of_send_ok hsend]

/-- The requests of a row have numbers one after the other, and each answer is to its own. -/
theorem Answered.sent (h : Answered method params timeout s answers t) :
    t.process.sent = s.process.sent ++
        (List.range' s.nextId answers.length).map (requestMessage · method params) ∧
      ∀ i (hi : i < answers.length), RespondsTo (.int (s.nextId + i : Nat)) answers[i].1 := by
  induction h with
  | nil s => exact ⟨by simp, fun i hi => absurd hi (Nat.not_lt_zero i)⟩
  | cons hfirst _ ih =>
    obtain ⟨hsent, hnext, hresponds⟩ := timedRequest_answered hfirst
    obtain ⟨hsent', hresponds'⟩ := ih
    constructor
    · rw [hsent', hsent, hnext, List.append_assoc, List.length_cons, List.range'_succ]
      rfl
    · intro i hi
      cases i with
      | zero => exact hresponds
      | succ i =>
        have hrest := hresponds' i (by simpa using hi)
        rw [hnext, Nat.add_right_comm] at hrest
        exact hrest

end Answered

/-! ## The rounds of the benchmark -/

section Rounds

variable {b : BenchSettings τ} {method : String} {params : Json} {ready : Session.Ready τ}
  {s t : Session τ} {answers : List (Json × τ)} {samples : List (Sample τ)} {i n : Nat}

/-- Requests are answered up to a measured one, whose response is the first that is not usable. -/
structure Spoils (b : BenchSettings τ) (method : String) (params : Json) (s : Session τ)
    (warm measured : List (Json × τ)) (response : Json) (t : Session τ) : Prop where
  answered : ∃ ms, Answered method params b.timeout s (warm ++ measured ++ [(response, ms)]) t
  warmup : warm.length = b.warmup.toNat
  early : (warm ++ measured).length < b.total
  usable : ∀ answer ∈ measured, isValidResponse answer.1 = true
  spoilt : isValidResponse response = false

omit [Clock τ] in
theorem Session.failure_of_no_crash {e : SessionError} (h : e.crash? = none)
    (memory : Option Int) (s : Session τ) :
    s.failure "" e memory = .ok (.failed e.message s.logs memory) := by
  rw [Session.failure, h, String.empty_append]

/-- Behind a response that is not usable nothing was written. -/
theorem Spoils.sent {warm measured : List (Json × τ)} {response : Json}
    (h : Spoils b method params s warm measured response t) :
    t.process.sent = s.process.sent ++
      (List.range' s.nextId (warm.length + measured.length + 1)).map
        (requestMessage · method params) := by
  obtain ⟨ms, hanswered⟩ := h.answered
  have hsent := hanswered.sent.1
  rwa [List.length_append, List.length_append, List.length_singleton] at hsent

end Rounds

/-! ## On a machine -/

/-- A server is started on a machine, and its session is shaken hands with, opens the document and
waits for the diagnostics of it.  If it gets so far, these are the diagnostics, the sample of the
memory that is taken right then, and the session behind it. -/
def Host.indexed? (server : Server) (b : BenchSettings τ) (h : Host τ) :
    Option (Diagnostics τ × Option Int × Session τ) :=
  match h.start server b.directory with
  | (.error _, _) => none
  | (.ok p, started) =>
    match (Session.attach server.label b.tracing 1024 started.clock p).openTarget h.files b with
    | (.error _, _) => none
    | (.ok _, opened) =>
      match opened.waitForDiagnostics b.indexTimeout with
      | (.error _, _) => none
      | (.ok info, indexed) => some (info, indexed.residentMemory)

section Machine

variable {server : Server} {b : BenchSettings τ} {h : Host τ} {info : Diagnostics τ}
  {memory : Option Int} {s : Session τ}

theorem Host.exists_of_indexed? (hindexed : h.indexed? server b = some (info, memory, s)) :
    ∃ p started uri opened indexed, h.start server b.directory = (.ok p, started) ∧
      (Session.attach server.label b.tracing 1024 started.clock p).openTarget h.files b =
        (.ok uri, opened) ∧
      opened.waitForDiagnostics b.indexTimeout = (.ok info, indexed) ∧
      indexed.residentMemory = (memory, s) := by
  unfold indexed? at hindexed
  split at hindexed
  · cases hindexed
  next hstart =>
  split at hindexed
  · cases hindexed
  next hopen =>
  split at hindexed
  · cases hindexed
  next hwait =>
  obtain ⟨rfl, hmemory⟩ := Prod.mk.inj (Option.some.inj hindexed)
  exact ⟨_, _, _, _, _, hstart, hopen, hwait, hmemory⟩

theorem Host.nextId_of_indexed? (hindexed : h.indexed? server b = some (info, memory, s)) :
    s.nextId = 2 := by
  obtain ⟨p, started, uri, opened, indexed, -, hopen, hwait, hmemory⟩ :=
    exists_of_indexed? hindexed
  have hopened := (Session.openTarget_ok hopen).2.1
  have hwaited := (Session.waitForDiagnostics_ok hwait).1
  obtain ⟨-, rfl⟩ := Prod.mk.inj hmemory
  exact hwaited.trans hopened

/-- On a machine with a server that indexes the document, a benchmark is its work behind that. -/
theorem onSession_of_indexed? (hindexed : h.indexed? server b = some (info, memory, s))
    (work : Session.Ready τ → Session τ → Report τ × Session τ) :
    (onSession server b work h).1.outcome =
        (work ⟨targetUri h.files b, info, memory⟩ s).1.outcome ∧
      (onSession server b work h).2.launched = h.launched ++
        [⟨(work ⟨targetUri h.files b, info, memory⟩ s).2.close.process, b.directory⟩] := by
  obtain ⟨p, started, uri, opened, indexed, hstart, hopen, hwait, hmemory⟩ :=
    Host.exists_of_indexed? hindexed
  obtain ⟨rfl, -⟩ := Session.openTarget_ok hopen
  have hlaunched := (Host.start_ok hstart).2.1
  have hprepare : (Session.attach server.label b.tracing 1024 started.clock p).prepare h.files b =
      ([Session.waitingLine], .ok ⟨targetUri h.files b, info, memory⟩, s) := by
    simp only [Session.prepare, hopen, hwait, hmemory]
  simp only [onSession, Host.withSession, hstart, Session.prepareAndWork, hprepare, Report.after,
    Host.conclude, hlaunched, and_self]

end Machine

section Hover

def hoverServer : Server := { label := "s", cmd := "server" }

def hoverSettings : BenchSettings Rat where
  directory := ⟨"/", []⟩
  rootUri := "file:///"
  target := ⟨"/", ["a.sol"]⟩
  warmup := 1
  iterations := 1
  timeout := 2
  indexTimeout := 2

def hoverHost : Host Rat where
  clock := 0
  files := ⟨⟨"/", []⟩, [(["a.sol"], .file [])]⟩
  servers := [("server",
    [{  out := [⟨1, .message (notificationMessage publishDiagnostics
          (.obj [("diagnostics", .arr [.null])]))⟩]
        replies := [("textDocument/hover",
          [[⟨1, .respond "result" .null⟩], [⟨1, .respond "result" (.bool true)⟩]])] }])]
  now := { date := ⟨2026, 2, 13⟩ }

end Hover

end Latency
