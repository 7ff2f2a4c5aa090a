import Latency.Session.Request
import Latency.Proofs.Session.Receiving
import Latency.Proofs.Session.Response
/-!
# What passes between a session and its server

A `Run` is a session at work: it writes messages, takes responses and diagnostics, and fails to do
so.  What succeeded is the list of its exchanges.  A plan says which exchanges are to come and in
which order; exchanges follow a plan if they are a part of it, from the front, and nothing else
(`Follows`).
-/

namespace Latency

inductive Exchange where
  | wrote (m : Json)
  /-- The response to a request was taken. -/
  | answered (id : Nat) (response : Json)
  /-- A wait for diagnostics came back with some. -/
  | indexed

def Exchange.message? : Exchange → Option Json
  | .wrote m => some m
  | _ => none

def written (es : List Exchange) : List Json :=
  es.filterMap Exchange.message?

inductive Move where
  | write (m : Json)
  | await (id : Nat)
  /-- The response must not be an error, or the plan ends with it. -/
  | accept (id : Nat)
  | diagnose

def Move.message? : Move → Option Json
  | .write m => some m
  | _ => none

def messagesOf (plan : List Move) : List Json :=
  plan.filterMap Move.message?

/-- Exchanges that follow a plan from its front. -/
inductive Follows : List Move → List Exchange → Prop where
  | stop (plan : List Move) : Follows plan []
  | write {plan : List Move} {es : List Exchange} (m : Json) :
      Follows plan es → Follows (.write m :: plan) (.wrote m :: es)
  | await {plan : List Move} {es : List Exchange} {id : Nat} {response : Json} :
      RespondsTo (.int id) response → Follows plan es →
        Follows (.await id :: plan) (.answered id response :: es)
  | accept {plan : List Move} {es : List Exchange} {id : Nat} {response : Json} :
      RespondsTo (.int id) response → response.has "error" = false → Follows plan es →
        Follows (.accept id :: plan) (.answered id response :: es)
  | refuse {id : Nat} {response : Json} (plan : List Move) :
      RespondsTo (.int id) response → response.has "error" = true →
        Follows (.accept id :: plan) [.answered id response]
  | diagnose {plan : List Move} {es : List Exchange} :
      Follows plan es → Follows (.diagnose :: plan) (.indexed :: es)

/-- What follows a plan writes the first of its messages, and no others. -/
theorem Follows.written_prefix {plan : List Move} {es : List Exchange} (h : Follows plan es) :
    written es <+: messagesOf plan := by
  induction h with
  | stop plan => exact List.nil_prefix
  | write m _ ih => exact List.prefix_cons_inj m |>.2 ih
  | await _ _ ih => exact ih
  | accept _ _ _ ih => exact ih
  | refuse _ _ _ => exact List.nil_prefix
  | diagnose _ ih => exact ih

/-- What followed a plan followed it at any time before. -/
theorem Follows.of_prefix {plan : List Move} {es front : List Exchange} (h : Follows plan es)
    (hfront : front <+: es) : Follows plan front := by
  induction h generalizing front with
  | stop plan =>
    rw [List.prefix_nil.1 hfront]
    exact .stop plan
  | write m _ ih =>
    obtain rfl | ⟨_, rfl, hrest⟩ := List.prefix_cons_iff.1 hfront
    · exact .stop _
    · exact .write m (ih hrest)
  | await hresponds _ ih =>
    obtain rfl | ⟨_, rfl, hrest⟩ := List.prefix_cons_iff.1 hfront
    · exact .stop _
    · exact .await hresponds (ih hrest)
  | accept hresponds haccepted _ ih =>
    obtain rfl | ⟨_, rfl, hrest⟩ := List.prefix_cons_iff.1 hfront
    · exact .stop _
    · exact .accept hresponds haccepted (ih hrest)
  | refuse plan hresponds hrefused =>
    obtain rfl | ⟨_, rfl, hrest⟩ := List.prefix_cons_iff.1 hfront
    · exact .stop _
    · rw [List.prefix_nil.1 hrest]
      exact .refuse plan hresponds hrefused
  | diagnose _ ih =>
    obtain rfl | ⟨_, rfl, hrest⟩ := List.prefix_cons_iff.1 hfront
    · exact .stop _
    · exact .diagnose (ih hrest)

namespace Process

variable {τ : Type} [Clock τ]

theorem sent_startAll (now : τ) (id : Json) (chunks : List (Chunk τ)) (p : Process τ) :
    (p.startAll now id chunks).sent = p.sent := by
  unfold startAll
  induction chunks generalizing p with
  | nil => rfl
  | cons c chunks ih => exact ih (p.start now id c)

theorem sent_of_write_ok {p q : Process τ} {now : τ} {m : Json}
    (h : p.write now m = (.ok (), q)) : q.sent = p.sent ++ [m] := by
  unfold write at h
  split at h
  · cases (Prod.mk.inj h).1
  · split at h
    · cases (Prod.mk.inj h).1
    · obtain ⟨-, rfl⟩ := Prod.mk.inj h
      exact sent_startAll ..

theorem eq_of_write_error {p q : Process τ} {now : τ} {m : Json} {failure : WriteFailure}
    (h : p.write now m = (.error failure, q)) : q = p := by
  unfold write at h
  split at h
  · exact (Prod.mk.inj h).2.symm
  · split at h
    · exact (Prod.mk.inj h).2.symm
    · cases (Prod.mk.inj h).1

theorem sent_poll (p : Process τ) (now : τ) : (p.poll now).2.sent = p.sent := by
  unfold poll
  split <;> rfl

theorem sent_residentMemory (p : Process τ) (now : τ) :
    (p.residentMemory now).2.sent = p.sent := by
  have halive : (p.isAlive now).2.sent = p.sent := by
    unfold isAlive
    split
    · rfl
    · exact sent_poll p now
  have hprobe (q : Process τ) : q.nextProbe.2.sent = q.sent := by
    unfold nextProbe
    split <;> rfl
  unfold residentMemory
  simp only
  split
  · exact (hprobe _).trans halive
  · exact halive

end Process

namespace Session

variable {τ : Type} [Clock τ]

/-- One step of a session at work, and what passed in it.  A request takes its id before it is
written. -/
inductive Step : Session τ → Option Exchange → Session τ → Prop where
  | write {s t : Session τ} {method : String} {m : Json} :
      s.write method m = (.ok (), t) → Step s (some (.wrote m)) t
  | notWritten {s t : Session τ} {method : String} {m : Json} {e : SessionError} :
      s.write method m = (.error e, t) → Step s none t
  | answer {s t : Session τ} {id : Nat} {timeout : τ} {response : Json} :
      s.readResponse (.int id) timeout = (.ok response, t) →
        Step s (some (.answered id response)) t
  | notAnswered {s t : Session τ} {id : Nat} {timeout : τ} {e : SessionError} :
      s.readResponse (.int id) timeout = (.error e, t) → Step s none t
  | index {s t : Session τ} {timeout : τ} {info : Diagnostics τ} :
      s.waitForDiagnostics timeout = (.ok info, t) → Step s (some .indexed) t
  | notIndexed {s t : Session τ} {timeout : τ} {e : SessionError} :
      s.waitForDiagnostics timeout = (.error e, t) → Step s none t
  | count (s : Session τ) : Step s none { s with nextId := s.nextId + 1 }
  | look (s : Session τ) : Step s none s.residentMemory.2

/-- A session at work, with what passed between it and its server. -/
inductive Run : Session τ → List Exchange → Session τ → Prop where
  | done (s : Session τ) : Run s [] s
  | silent {s t u : Session τ} {es : List Exchange} : Step s none t → Run t es u → Run s es u
  | exchange {s t u : Session τ} {x : Exchange} {es : List Exchange} :
      Step s (some x) t → Run t es u → Run s (x :: es) u

theorem Run.silent_last {s t u : Session τ} {es : List Exchange} (h : Run s es t)
    (hstep : Step t none u) : Run s es u := by
  induction h with
  | done s => exact .silent hstep (.done u)
  | silent hfirst _ ih => exact .silent hfirst (ih hstep)
  | exchange hfirst _ ih => exact .exchange hfirst (ih hstep)

/-! ## What a run writes -/

omit [Clock τ] in
theorem Receives.sent_eq {s t : Session τ} (h : Receives s t) :
    t.process.sent = s.process.sent := by
  obtain ⟨arrivals, hprocess⟩ := h.process_eq
  rw [hprocess]

theorem write_ok {s t : Session τ} {method : String} {m : Json}
    (h : s.write method m = (.ok (), t)) :
    t.nextId = s.nextId ∧ t.process.sent = s.process.sent ++ [m] := by
  have hnoted := note_receives ("[" ++ s.label ++ " ->] " ++ method) s
  unfold write at h
  simp only at h
  split at h
  · next q hwrite =>
    obtain ⟨-, rfl⟩ := Prod.mk.inj h
    exact ⟨hnoted.nextId_eq, by rw [Process.sent_of_write_ok hwrite, hnoted.sent_eq]⟩
  · cases (Prod.mk.inj h).1

theorem write_error {s t : Session τ} {method : String} {m : Json} {e : SessionError}
    (h : s.write method m = (.error e, t)) :
    t.nextId = s.nextId ∧ t.process.sent = s.process.sent := by
  have hnoted := note_receives ("[" ++ s.label ++ " ->] " ++ method) s
  unfold write at h
  simp only at h
  split at h
  · cases (Prod.mk.inj h).1
  · next failure q hwrite =>
    obtain ⟨-, rfl⟩ := Prod.mk.inj h
    exact ⟨hnoted.nextId_eq, by rw [Process.eq_of_write_error hwrite, hnoted.sent_eq]⟩

theorem Step.sent_eq {s t : Session τ} {o : Option Exchange} (h : Step s o t) :
    t.process.sent = s.process.sent ++ written o.toList := by
  cases h with
  | write hwrite => exact (write_ok hwrite).2
  | notWritten hwrite => rw [(write_error hwrite).2]; exact (List.append_nil _).symm
  | answer hanswer =>
    have hreceives := (readResponse_receives _ _ s).of_eq hanswer
    rw [hreceives.sent_eq]
    exact (List.append_nil _).symm
  | notAnswered hanswer =>
    have hreceives := (readResponse_receives _ _ s).of_eq hanswer
    rw [hreceives.sent_eq]
    exact (List.append_nil _).symm
  | index hwait =>
    have hreceives := (waitForDiagnostics_receives _ s).of_eq hwait
    rw [hreceives.sent_eq]
    exact (List.append_nil _).symm
  | notIndexed hwait =>
    have hreceives := (waitForDiagnostics_receives _ s).of_eq hwait
    rw [hreceives.sent_eq]
    exact (List.append_nil _).symm
  | count => exact (List.append_nil _).symm
  | look => exact (Process.sent_residentMemory s.process s.clock).trans (List.append_nil _).symm

/-- The server got exactly the messages that were written. -/
theorem Run.sent_eq {s t : Session τ} {es : List Exchange} (h : Run s es t) :
    t.process.sent = s.process.sent ++ written es := by
  induction h with
  | done s => exact (List.append_nil _).symm
  | silent hstep _ ih =>
    have hsame := hstep.sent_eq
    rw [ih, hsame]
    exact congrArg (· ++ _) (List.append_nil _)
  | @exchange s t u x es hstep _ ih =>
    rw [ih, hstep.sent_eq, List.append_assoc]
    cases x <;> rfl

end Session

end Latency
