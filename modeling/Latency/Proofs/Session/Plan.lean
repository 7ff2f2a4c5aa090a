import Latency.Proofs.Session.Exchange
/-!
# Sessions that play a plan

A session plays a plan when what passes follows it (`Plays`), and is led through a plan when it can
go on with any other behind it (`Leads`).  Every operation that a benchmark uses is told in these
words: what it does when it succeeds, and how far it may have come when it fails.  The messages of a
plan are written out member by member.
-/

/-! ## Messages, member by member -/

namespace Latency.Wire

def request (id : Nat) (method : String) (params : Json) : Json :=
  .obj [("jsonrpc", .str "2.0"), ("id", .int id), ("method", .str method), ("params", params)]

def notification (method : String) (params : Json) : Json :=
  .obj [("jsonrpc", .str "2.0"), ("method", .str method), ("params", params)]

def handshake (id : Nat) (rootUri : String) : Json :=
  request id "initialize" (.obj [("processId", .int clientPid), ("rootUri", .str rootUri),
    ("capabilities", clientCapabilities)])

def initialized : Json :=
  notification "initialized" (.obj [])

def didOpen (uri languageId text : String) : Json :=
  notification "textDocument/didOpen" (.obj [("textDocument", .obj [("uri", .str uri),
    ("languageId", .str languageId), ("version", .int 1), ("text", .str text)])])

def didChange (uri : String) (version : Nat) (text : String) : Json :=
  notification "textDocument/didChange" (.obj [
    ("textDocument", .obj [("uri", .str uri), ("version", .int version)]),
    ("contentChanges", .arr [.obj [("text", .str text)]])])

end Latency.Wire

namespace Latency.Session

variable {τ : Type} [Clock τ] {s t u : Session τ} {plan rest : List Move}

/-- A session that comes from `s` to `u` by a part of a plan, from its front. -/
def Plays (plan : List Move) (s u : Session τ) : Prop :=
  ∃ es, Run s es u ∧ Follows plan es

/-- A session that comes from `s` to `t` by the whole of a plan. -/
def Leads (plan : List Move) (s t : Session τ) : Prop :=
  ∀ rest u, Plays rest t u → Plays (plan ++ rest) s u

theorem plays_self (plan : List Move) (s : Session τ) : Plays plan s s :=
  ⟨[], .done s, .stop plan⟩

theorem Plays.silent_last (h : Plays plan s t) (hstep : Step t none u) : Plays plan s u := by
  obtain ⟨es, hrun, hfollows⟩ := h
  exact ⟨es, hrun.silent_last hstep, hfollows⟩

theorem leads_self (s : Session τ) : Leads [] s s :=
  fun _ _ h => h

theorem Leads.trans (h : Leads plan s t) (h' : Leads rest t u) : Leads (plan ++ rest) s u := by
  intro more v hplays
  rw [List.append_assoc]
  exact h _ v (h' more v hplays)

theorem Leads.stops (h : Leads plan s t) (rest : List Move) : Plays (plan ++ rest) s t :=
  h rest t (plays_self rest t)

/-! ## One exchange -/

theorem Step.leads_silent (h : Step s none t) : Leads [] s t := by
  rintro rest u ⟨es, hrun, hfollows⟩
  exact ⟨es, .silent h hrun, hfollows⟩

theorem leads_write {method : String} {m : Json} (h : s.write method m = (.ok (), t)) :
    Leads [.write m] s t := by
  rintro rest u ⟨es, hrun, hfollows⟩
  exact ⟨_, .exchange (.write h) hrun, .write m hfollows⟩

theorem readResponse_responds {id : Json} {timeout : τ} {response : Json}
    (h : s.readResponse id timeout = (.ok response, t)) : RespondsTo id response := by
  unfold readResponse at h
  split at h
  · exact readUntil_responds (congrArg Prod.fst h)
  · cases (Prod.mk.inj h).1

theorem leads_await {id : Nat} {timeout : τ} {response : Json}
    (h : s.readResponse (.int id) timeout = (.ok response, t)) : Leads [.await id] s t := by
  rintro rest u ⟨es, hrun, hfollows⟩
  exact ⟨_, .exchange (.answer h) hrun, .await (readResponse_responds h) hfollows⟩

theorem leads_accept {id : Nat} {timeout : τ} {response : Json}
    (h : s.readResponse (.int id) timeout = (.ok response, t))
    (haccepted : response.has "error" = false) : Leads [.accept id] s t := by
  rintro rest u ⟨es, hrun, hfollows⟩
  exact ⟨_, .exchange (.answer h) hrun, .accept (readResponse_responds h) haccepted hfollows⟩

/-- A response that is refused ends the plan. -/
theorem plays_refuse {id : Nat} {timeout : τ} {response : Json}
    (h : s.readResponse (.int id) timeout = (.ok response, t))
    (hrefused : response.has "error" = true) (rest : List Move) :
    Plays (.accept id :: rest) s t :=
  ⟨_, .exchange (.answer h) (.done t), .refuse rest (readResponse_responds h) hrefused⟩

/-! ## Operations -/

theorem waitForDiagnostics_ok {timeout : τ} {info : Diagnostics τ}
    (h : s.waitForDiagnostics timeout = (.ok info, t)) :
    t.nextId = s.nextId ∧ Leads [.diagnose] s t := by
  refine ⟨((waitForDiagnostics_receives timeout s).of_eq h).nextId_eq, ?_⟩
  rintro rest u ⟨es, hrun, hfollows⟩
  exact ⟨_, .exchange (.index h) hrun, .diagnose hfollows⟩

theorem waitForDiagnostics_error {timeout : τ} {e : SessionError}
    (h : s.waitForDiagnostics timeout = (.error e, t)) :
    t.nextId = s.nextId ∧ Leads [] s t :=
  ⟨((waitForDiagnostics_receives timeout s).of_eq h).nextId_eq, (Step.notIndexed h).leads_silent⟩

theorem notify_ok {method : String} {params : Json} (h : s.notify method params = (.ok (), t)) :
    t.nextId = s.nextId ∧ Leads [.write (Wire.notification method params)] s t :=
  ⟨(write_ok h).1, leads_write h⟩

theorem notify_error {method : String} {params : Json} {e : SessionError}
    (h : s.notify method params = (.error e, t)) : t.nextId = s.nextId ∧ Leads [] s t :=
  ⟨(write_error h).1, (Step.notWritten h).leads_silent⟩

theorem send_ok {method : String} {params : Json} {id : Nat}
    (h : s.send method params = (.ok id, t)) :
    id = s.nextId ∧ t.nextId = s.nextId + 1 ∧
      Leads [.write (Wire.request s.nextId method params)] s t := by
  unfold send at h
  simp only at h
  split at h
  · next hwrite =>
    obtain ⟨hid, rfl⟩ := Prod.mk.inj h
    have hcount := (Step.count s).leads_silent
    exact ⟨(Except.ok.inj hid).symm, (write_ok hwrite).1, hcount.trans (leads_write hwrite)⟩
  · cases (Prod.mk.inj h).1

theorem send_error {method : String} {params : Json} {e : SessionError}
    (h : s.send method params = (.error e, t)) : t.nextId = s.nextId + 1 ∧ Leads [] s t := by
  unfold send at h
  simp only at h
  split at h
  · cases (Prod.mk.inj h).1
  · next hwrite =>
    obtain ⟨-, rfl⟩ := Prod.mk.inj h
    have hcount := (Step.count s).leads_silent
    exact ⟨(write_error hwrite).1, hcount.trans (Step.notWritten hwrite).leads_silent⟩

/-- A request that fails was perhaps written. -/
theorem request_error {method : String} {params : Json} {timeout : τ} {e : SessionError}
    (h : s.request method params timeout = (.error e, t)) :
    ∀ rest, Plays (.write (Wire.request s.nextId method params) :: rest) s t := by
  intro rest
  unfold request at h
  split at h
  · next hsend =>
    obtain ⟨-, rfl⟩ := Prod.mk.inj h
    exact (send_error hsend).2.stops _
  · next id mid hsend =>
    obtain ⟨rfl, -, hleads⟩ := send_ok hsend
    exact (hleads.trans (Step.notAnswered h).leads_silent).stops rest

theorem request_ok {method : String} {params : Json} {timeout : τ} {response : Json}
    (h : s.request method params timeout = (.ok response, t)) :
    t.nextId = s.nextId + 1 ∧
      ∃ mid, Leads [.write (Wire.request s.nextId method params)] s mid ∧
        mid.readResponse (.int s.nextId) timeout = (.ok response, t) := by
  unfold request at h
  split at h
  · cases (Prod.mk.inj h).1
  · next id mid hsend =>
    obtain ⟨rfl, hnext, hleads⟩ := send_ok hsend
    have hreceives := (readResponse_receives _ timeout mid).of_eq h
    exact ⟨hreceives.nextId_eq.trans hnext, mid, hleads, h⟩

/-! ## The handshake and the document -/

def handshakeMoves (id : Nat) (rootUri : String) : List Move :=
  [.write (Wire.handshake id rootUri), .accept id, .write Wire.initialized]

theorem handshake_error {rootUri : String} {e : SessionError}
    (h : s.handshake rootUri = (.error e, t)) (rest : List Move) :
    Plays (handshakeMoves s.nextId rootUri ++ rest) s t := by
  unfold handshake at h
  split at h
  · next hrequest =>
    obtain ⟨-, rfl⟩ := Prod.mk.inj h
    exact request_error hrequest _
  · next response mid hrequest =>
    obtain ⟨-, sent, hleads, hanswer⟩ := request_ok hrequest
    split at h
    · next herror =>
      obtain ⟨-, rfl⟩ := Prod.mk.inj h
      have hrefused : response.has "error" = true := by rw [Json.has, herror]; rfl
      exact hleads _ _ (plays_refuse hanswer hrefused _)
    · next hnone =>
      have haccepted : response.has "error" = false := by rw [Json.has, hnone]; rfl
      split at h
      · next hnotify =>
        obtain ⟨-, rfl⟩ := Prod.mk.inj h
        have hshaken := hleads.trans (leads_accept hanswer haccepted)
        exact (hshaken.trans (notify_error hnotify).2).stops _
      · cases (Prod.mk.inj h).1

theorem handshake_ok {rootUri : String} {response : Json}
    (h : s.handshake rootUri = (.ok response, t)) :
    t.nextId = s.nextId + 1 ∧ Leads (handshakeMoves s.nextId rootUri) s t := by
  unfold handshake at h
  split at h
  · cases (Prod.mk.inj h).1
  · next response' mid hrequest =>
    obtain ⟨hnext, sent, hleads, hanswer⟩ := request_ok hrequest
    split at h
    · cases (Prod.mk.inj h).1
    · next hnone =>
      have haccepted : response'.has "error" = false := by rw [Json.has, hnone]; rfl
      split at h
      · cases (Prod.mk.inj h).1
      · next hnotify =>
        obtain ⟨-, rfl⟩ := Prod.mk.inj h
        obtain ⟨hkept, hnotified⟩ := notify_ok hnotify
        have hshaken := hleads.trans (leads_accept hanswer haccepted)
        exact ⟨hkept.trans hnext, hshaken.trans hnotified⟩

/-- The message that opens a document under the URI of its resolved path. -/
def openMessage (files : Files) (path : Path) (languageId text : String) : Json :=
  Wire.didOpen (Path.resolve files.base path).uri languageId text

theorem openFile_error {files : Files} {path : Path} {languageId : String} {e : SessionError}
    (h : s.openFile files path languageId = (.error e, t)) :
    t.nextId = s.nextId ∧ Leads [] s t := by
  unfold openFile at h
  split at h
  · obtain ⟨-, rfl⟩ := Prod.mk.inj h
    exact ⟨rfl, leads_self s⟩
  · simp only at h
    split at h
    · next hnotify =>
      obtain ⟨-, rfl⟩ := Prod.mk.inj h
      exact notify_error hnotify
    · cases (Prod.mk.inj h).1

theorem openFile_ok {files : Files} {path : Path} {languageId uri : String}
    (h : s.openFile files path languageId = (.ok uri, t)) :
    uri = (Path.resolve files.base path).uri ∧ t.nextId = s.nextId ∧
      ∃ text, files.readText path = .ok text ∧
        Leads [.write (openMessage files path languageId text)] s t := by
  unfold openFile at h
  split at h
  · cases (Prod.mk.inj h).1
  · next text hread =>
    simp only at h
    split at h
    · cases (Prod.mk.inj h).1
    · next hnotify =>
      obtain ⟨huri, rfl⟩ := Prod.mk.inj h
      obtain ⟨hkept, hnotified⟩ := notify_ok hnotify
      exact ⟨(Except.ok.inj huri).symm, hkept, text, hread, hnotified⟩

end Latency.Session
