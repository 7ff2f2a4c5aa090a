import Latency.Proofs.Bench.Fresh
import Latency.Proofs.Session.Logs
/-!
# The log that a benchmark reports

A benchmark does nothing with a session but its operations, and a failure carries the log of the
session it came from, as it is then (`Works`).  So the log of a failed benchmark has the texts of
all messages that were consumed of that session, up to the failure and without a gap.
-/

namespace Latency

variable {τ : Type} [Clock τ]

/-! ## Benchmarks as operations -/

namespace Session

variable {s t u : Session τ}

/-- A session that came to another state by operations alone. -/
def Performs (s t : Session τ) : Prop :=
  ∃ ops, runAll ops s = t

theorem Performs.refl (s : Session τ) : Performs s s :=
  ⟨[], rfl⟩

theorem Performs.trans (h : Performs s t) (h' : Performs t u) : Performs s u := by
  obtain ⟨ops, rfl⟩ := h
  obtain ⟨ops', rfl⟩ := h'
  exact ⟨ops ++ ops', List.foldl_append⟩

theorem performs_run (op : Operation τ) (s : Session τ) : Performs s (op.run s) :=
  ⟨[op], rfl⟩

/-- What was performed by an operation, of the session that a match on it names. -/
theorem performs_of_eq (op : Operation τ) {α : Type} {x : α × Session τ} {result : α}
    (hx : x = (result, t)) (hop : op.run s = x.2) : Performs s t := by
  subst hx
  exact ⟨[op], hop⟩

theorem performs_request {method : String} {params : Json} {timeout : τ}
    {result : Except SessionError Json} (h : s.request method params timeout = (result, t)) :
    Performs s t := by
  unfold request at h
  split at h
  · next hsend =>
    obtain ⟨-, rfl⟩ := Prod.mk.inj h
    exact performs_of_eq (.send method params) hsend rfl
  · next id next hsend =>
    exact (performs_of_eq (.send method params) hsend rfl).trans
      (performs_of_eq (.readResponse (.int id) timeout) h rfl)

theorem performs_handshake {rootUri : String} {result : Except SessionError Json}
    (h : s.handshake rootUri = (result, t)) : Performs s t := by
  unfold handshake at h
  split at h
  · next hrequest =>
    obtain ⟨-, rfl⟩ := Prod.mk.inj h
    exact performs_request hrequest
  · next hrequest =>
    have hasked := performs_request hrequest
    split at h
    · obtain ⟨-, rfl⟩ := Prod.mk.inj h
      exact hasked
    · split at h
      all_goals
        next hnotify =>
        obtain ⟨-, rfl⟩ := Prod.mk.inj h
        exact hasked.trans (performs_of_eq (.notify "initialized" (.obj [])) hnotify rfl)

theorem performs_openFile {files : Files} {path : Path} {languageId : String}
    {result : Except SessionError String} (h : s.openFile files path languageId = (result, t)) :
    Performs s t :=
  performs_of_eq (.openFile files path languageId) h rfl

theorem performs_diagnostics {timeout : τ} {result : Except SessionError (Diagnostics τ)}
    (h : s.waitForDiagnostics timeout = (result, t)) : Performs s t :=
  performs_of_eq (.waitForDiagnostics timeout) h rfl

theorem performs_memory (s : Session τ) : Performs s s.residentMemory.2 :=
  performs_run .residentMemory s

theorem performs_openTarget {files : Files} {b : BenchSettings τ}
    {result : Except SessionError String} (h : s.openTarget files b = (result, t)) :
    Performs s t := by
  unfold openTarget at h
  split at h
  · next hshake =>
    obtain ⟨-, rfl⟩ := Prod.mk.inj h
    exact performs_handshake hshake
  · next hshake => exact (performs_handshake hshake).trans (performs_openFile h)

/-- Work on a session that came to an end by operations.  If that is a failure, its log is the one
that the session had then. -/
structure Works (s : Session τ) (outcome : Ended τ) (t : Session τ) : Prop where
  performs : Performs s t
  logs_eq {error : String} {logs : List String} {memory : Option Int} :
    outcome = .ok (.failed error logs memory) → logs = t.logs

theorem Works.after (h : Performs s t) {outcome : Ended τ} (h' : Works t outcome u) :
    Works s outcome u :=
  ⟨h.trans h'.performs, h'.logs_eq⟩

theorem works_failure (place : String) (e : SessionError) (memory : Option Int) (s : Session τ) :
    Works s (s.failure place e memory) s where
  performs := .refl s
  logs_eq := by
    intro error logs memory' h
    unfold failure at h
    split at h
    · cases h
    · obtain ⟨-, hlogs, -⟩ := Outcome.failed.inj (Except.ok.inj h)
      exact hlogs.symm

theorem works_failureNow (place : String) (e : SessionError) (s : Session τ) :
    Works s (s.failureNow place e).1 (s.failureNow place e).2 :=
  .after (performs_memory s) (works_failure place e _ _)

theorem works_ok (samples : List (Sample τ)) (diagnostics : Option (Diagnostics τ))
    (memory : Option Int) (s : Session τ) : Works s (.ok (.ok samples diagnostics memory)) s where
  performs := .refl s
  logs_eq h := by cases h

variable {files : Files} {b : BenchSettings τ}

theorem prepare_works {lines : List String} {outcome : Ended τ}
    (h : s.prepare files b = (lines, .error outcome, t)) : Works s outcome t := by
  unfold prepare at h
  split at h
  · next e next hopen =>
    obtain ⟨-, hrest⟩ := Prod.mk.inj h
    obtain ⟨houtcome, rfl⟩ := Prod.mk.inj hrest
    obtain rfl := Except.error.inj houtcome
    exact .after (performs_openTarget hopen) (works_failureNow "" e next)
  · next hopen =>
    split at h
    · next e last hwait =>
      obtain ⟨-, hrest⟩ := Prod.mk.inj h
      obtain ⟨houtcome, rfl⟩ := Prod.mk.inj hrest
      obtain rfl := Except.error.inj houtcome
      have hwaited := (performs_openTarget hopen).trans (performs_diagnostics hwait)
      exact .after hwaited (works_failureNow _ e last)
    · cases (Prod.mk.inj (Prod.mk.inj h).2).1

theorem performs_prepare {lines : List String} {ready : Ready τ}
    (h : s.prepare files b = (lines, .ok ready, t)) : Performs s t := by
  unfold prepare at h
  split at h
  · cases (Prod.mk.inj (Prod.mk.inj h).2).1
  · next hopen =>
    split at h
    · cases (Prod.mk.inj (Prod.mk.inj h).2).1
    · next last hwait =>
      obtain ⟨-, hrest⟩ := Prod.mk.inj h
      obtain ⟨-, rfl⟩ := Prod.mk.inj hrest
      have hwaited := (performs_openTarget hopen).trans (performs_diagnostics hwait)
      exact hwaited.trans (performs_memory last)

theorem prepareAndWork_works {work : Ready τ → Session τ → Report τ × Session τ}
    (hwork : ∀ ready (t : Session τ), Works t (work ready t).1.outcome (work ready t).2)
    (s : Session τ) :
    Works s (s.prepareAndWork files b work).1.outcome (s.prepareAndWork files b work).2 := by
  unfold prepareAndWork
  split
  · next hprepare => exact prepare_works hprepare
  · next ready next hprepare => exact .after (performs_prepare hprepare) (hwork ready next)

end Session

open Session

section Rounds

variable {s t : Session τ}

theorem performs_timedRequest {method : String} {params : Json} {timeout : τ}
    {result : Except SessionError (Json × τ)}
    (h : timedRequest method params timeout s = (result, t)) : Performs s t := by
  unfold timedRequest at h
  split at h
  all_goals
    next hrequest =>
    obtain ⟨-, rfl⟩ := Prod.mk.inj h
    exact performs_request hrequest

theorem requestRounds_works (b : BenchSettings τ) (method : String) (params : Json)
    (ready : Session.Ready τ) (samples : List (Sample τ)) (i n : Nat) (s : Session τ) :
    Works s (requestRounds b method params ready samples i n s).1.outcome
      (requestRounds b method params ready samples i n s).2 := by
  induction n generalizing s samples i with
  | zero => exact works_ok ..
  | succ n ih =>
    unfold requestRounds
    split
    · next e next htimed => exact .after (performs_timedRequest htimed) (works_failure "" e _ next)
    · next response ms next htimed =>
      have hasked := performs_timedRequest htimed
      split
      · exact .after hasked (ih _ _ next)
      split
      · exact .after hasked (ih _ _ next)
      · exact ⟨hasked, fun h => by cases h⟩

theorem editRounds_works (files : Files) (b : BenchSettings τ) (method : String) (total : Nat)
    (ready : Session.Ready τ) (samples : List (Sample τ)) (i : Nat) (edits : List ResolvedEdit)
    (s : Session τ) :
    Works s (editRounds files b method total ready samples i edits s).1.outcome
      (editRounds files b method total ready samples i edits s).2 := by
  induction edits generalizing s samples i with
  | nil => exact works_ok ..
  | cons edit rest ih =>
    unfold editRounds
    simp only
    split
    · exact works_failure ..
    · next text _ =>
      split
      · next e next hchange =>
        exact .after (performs_of_eq (.changeFile ready.uri (.int (i + 2)) text) hchange rfl)
          (works_failure "" e _ next)
      · next changed hchange =>
        have hchanged := performs_of_eq (.changeFile ready.uri (.int (i + 2)) text) hchange rfl
        split
        · next e next htimed =>
          exact .after (hchanged.trans (performs_timedRequest htimed)) (works_failure "" e _ next)
        · next next htimed =>
          exact .after (hchanged.trans (performs_timedRequest htimed)) (ih _ _ next)

end Rounds

/-! ## The log of a failure -/

/-- What the log of a failure is, told from the machine before and after the session it came from:
empty if the server was not started, and else the log of that session when it was closed.  It has
the texts of the messages that were consumed of it. -/
inductive FailureLog (server : Server) (b : BenchSettings τ) (h last : Host τ)
    (logs : List String) : Prop where
  | unstarted {failure : SpawnFailure} :
      h.start server b.directory = (.error failure, last) → logs = [] →
      FailureLog server b h last logs
  | session {p : Process τ} {started : Host τ} (ops : List (Operation τ)) :
      h.start server b.directory = (.ok p, started) →
      last = started.conclude b.directory (runAll ops (started.attach server b p)).close →
      logs = (runAll ops (started.attach server b p)).logs →
      LogsOf (consumed ops (started.attach server b p)) logs → FailureLog server b h last logs

section Failures

variable {server : Server} {b : BenchSettings τ} {h started last : Host τ} {p : Process τ}
  {error : String} {logs : List String} {memory : Option Int}

theorem FailureLog.of_performs {s : Session τ}
    (hstart : h.start server b.directory = (.ok p, started))
    (hperforms : Performs (started.attach server b p) s) (hlogs : logs = s.logs) :
    FailureLog server b h (started.conclude b.directory s.close) logs := by
  obtain ⟨ops, rfl⟩ := hperforms
  refine .session ops hstart rfl hlogs ?_
  rw [hlogs]
  exact runAll_logsOf ops rfl

theorem Task.Fails.failureLog {task : Task} {e : SessionError}
    (hfails : Task.Fails server b h task e logs memory last) : FailureLog server b h last logs := by
  cases hfails with
  | unstarted hstart => exact .unstarted hstart rfl
  | refused hstart hshake => exact .of_performs hstart (performs_handshake hshake) rfl
  | unopened hstart hshake hopen =>
    exact .of_performs hstart ((performs_handshake hshake).trans (performs_openFile hopen)) rfl
  | undiagnosed hstart hshake hopen hwait =>
    have hopened := (performs_handshake hshake).trans (performs_openFile hopen)
    have hlooked := (hopened.trans (performs_diagnostics hwait)).trans (performs_memory _)
    exact .of_performs hstart hlooked rfl

theorem onSession_failureLog
    {work : Session.Ready τ → Session τ → Report τ × Session τ}
    (hwork : ∀ ready t, Works t (work ready t).1.outcome (work ready t).2)
    (hfailed : (onSession server b work h).1.outcome = .ok (.failed error logs memory)) :
    FailureLog server b h (onSession server b work h).2 logs := by
  cases hstart : h.start server b.directory with
  | mk result started =>
  cases result with
  | error failure =>
    simp only [onSession, Host.withSession, hstart] at hfailed ⊢
    refine .unstarted hstart ?_
    unfold notStarted at hfailed
    split at hfailed
    · cases hfailed
    · obtain ⟨-, hlogs, -⟩ := Outcome.failed.inj (Except.ok.inj hfailed)
      exact hlogs.symm
  | ok p =>
    simp only [onSession, Host.withSession, hstart] at hfailed ⊢
    let s : Session τ := started.attach server b p
    have hworks : Works s (s.prepareAndWork h.files b work).1.outcome
        (s.prepareAndWork h.files b work).2 := prepareAndWork_works hwork s
    exact .of_performs hstart hworks.performs (hworks.logs_eq hfailed)

/-- Iterations with a server of their own fail with the log of the one that failed. -/
theorem Task.iterate_failureLog {task : Task} (htask : task = .startup ∨ task = .diagnostics)
    {params : String → String → Json}
    (hfailed : (task.run b params server h).1.outcome = .ok (.failed error logs memory)) :
    ∃ rounds before, Task.Rounds task server b h rounds before ∧
      FailureLog server b before (task.run b params server h).2 logs := by
  have hrun := Task.run_eq_iterate htask server b params h
  obtain ⟨rounds, before, hrounds, hlength | ⟨hlt, e, logs', memory', next, hfails⟩⟩ :=
    Task.exists_rounds htask server b b.total h
  · have hwhole := hrounds.iterate_eq [] none none 0 0
    rw [Nat.add_zero, hlength] at hwhole
    rw [hwhole] at hrun
    cases hfailed.symm.trans (Prod.mk.inj hrun).1
  · rw [hrounds.iterate_fails htask hlt hfails] at hrun
    obtain ⟨houtcome, hlast⟩ := Prod.mk.inj hrun
    have hsame := houtcome.symm.trans hfailed
    unfold SessionError.outcome at hsame
    split at hsame
    · cases hsame
    · obtain ⟨-, rfl, -⟩ := Outcome.failed.inj (Except.ok.inj hsame)
      exact ⟨rounds, before, hrounds, hlast ▸ hfails.failureLog⟩

/-- The log of a failed benchmark is that of the session it failed with. -/
theorem Task.exists_failureLog {task : Task} {params : String → String → Json}
    (hfailed : (task.run b params server h).1.outcome = .ok (.failed error logs memory)) :
    ∃ rounds before, Task.Rounds task server b h rounds before ∧
      FailureLog server b before (task.run b params server h).2 logs := by
  cases task with
  | startup => exact Task.iterate_failureLog (.inl rfl) hfailed
  | diagnostics => exact Task.iterate_failureLog (.inr rfl) hfailed
  | requests method =>
    exact ⟨[], h, .nil h, onSession_failureLog
      (fun ready t => requestRounds_works b method _ ready [] 0 b.total t) hfailed⟩
  | edits method list =>
    exact ⟨[], h, .nil h, onSession_failureLog
      (fun ready t => editRounds_works h.files b method list.length ready [] 0 list t) hfailed⟩

end Failures

/-- **The log of a session misses nothing.**  After any operations it has the texts of those
messages that were consumed and are to be logged, in order, each once.  A wait consumes from the
front of what is ahead of the session and the other operations consume nothing.  A benchmark that
failed reports the log of the session it failed with, as it was then. -/
theorem logs_miss_nothing :
    (∀ (label : String) (tracing : Bool) (capacity : Nat) (clock : τ) (p : Process τ)
      (ops : List (Operation τ)),
      LogsOf (consumed ops (Session.attach label tracing capacity clock p))
        (runAll ops (Session.attach label tracing capacity clock p)).logs) ∧
    (∀ (s : Session τ) (op : Operation τ),
      (op.IsWait → s.stream = op.taken s ++ (op.run s).stream) ∧
      (¬ op.IsWait → op.taken s = [] ∧ (op.run s).pipe.queue = s.pipe.queue)) ∧
    ∀ (task : Task) (server : Server) (b : BenchSettings τ) (params : String → String → Json)
      (h : Host τ) (error : String) (logs : List String) (memory : Option Int),
      (task.run b params server h).1.outcome = .ok (.failed error logs memory) →
        ∃ rounds before, Task.Rounds task server b h rounds before ∧
          FailureLog server b before (task.run b params server h).2 logs := by
  refine ⟨fun label tracing capacity clock p ops => runAll_logsOf ops rfl, fun s op => ⟨?_, ?_⟩, ?_⟩
  · intro hwait
    exact (Operation.drains_taken hwait s).stream_eq
  · intro hother
    exact ⟨if_neg hother, (Operation.quiet_of_not_isWait hother s).queue_eq⟩
  · intro task server b params h error logs memory hfailed
    exact Task.exists_failureLog hfailed

section Talkative

def logMessage (id text : Json) : Json :=
  .obj [("id", id), ("method", .str "window/logMessage"), ("params", .obj [("message", text)])]

/-- A server that logs before it shakes hands, under the id that is waited for, and behind it, where
diagnostics are waited for; and ends its output. -/
def talkativeHost : Host Rat where
  clock := 0
  files := ⟨⟨"/", []⟩, [(["a.sol"], .file [])]⟩
  servers := [("server",
    [{  out := [⟨1, .message (logMessage (.int 1) (.str "hello"))⟩,
          ⟨1, .message (logMessage (.int 7) .null)⟩]
        replies := [("initialize", [[⟨2, .respond "result" .null⟩,
          ⟨3, .message (logMessage .null (.int 5))⟩, ⟨4, .endOutput⟩]])] }])]
  now := { date := ⟨2026, 2, 13⟩ }

/-- Whether a benchmark failed with this log. -/
def failsWith (lines : List String) : Ended Rat → Bool
  | .ok (.failed _ logs _) => logs == lines
  | _ => false

/-- Both waits have logged, and nothing of a message without a text. -/
theorem logs_miss_nothing_talkative :
    (crossedReplies.stream = (Operation.readResponse (.int 1) 3).taken crossedReplies ++
        ((Operation.readResponse (.int 1) 3).run crossedReplies).stream) ∧
      (messagesIn ((Operation.readResponse (.int 1) 3).taken crossedReplies)).length = 3 ∧
      Operation.close.taken crossedReplies = [] ∧
      ∃ rounds before,
        Task.Rounds (.requests "textDocument/hover") hoverServer hoverSettings talkativeHost rounds
          before ∧
        FailureLog hoverServer hoverSettings before
          ((Task.requests "textDocument/hover").run hoverSettings (Params.forMethod [] 0 0)
            hoverServer talkativeHost).2 ["hello", "5"] := by
  obtain ⟨-, hoperations, hfailure⟩ := logs_miss_nothing (τ := Rat)
  obtain ⟨hwait, -⟩ := hoperations crossedReplies (.readResponse (.int 1) 3)
  obtain ⟨-, hother⟩ := hoperations crossedReplies .close
  refine ⟨hwait trivial, by decide +kernel, (hother id).1, ?_⟩
  have hfailed : failsWith ["hello", "5"] ((Task.requests "textDocument/hover").run hoverSettings
      (Params.forMethod [] 0 0) hoverServer talkativeHost).1.outcome = true := by
    decide +kernel
  unfold failsWith at hfailed
  split at hfailed
  · next error logs memory houtcome =>
    obtain rfl := beq_iff_eq.1 hfailed
    exact hfailure _ _ _ _ _ error _ memory houtcome
  · cases hfailed

end Talkative

end Latency
