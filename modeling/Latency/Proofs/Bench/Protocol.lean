import Latency.Proofs.Bench.Containment
/-!
# The protocol on the wire

What a benchmark writes to a server follows its plan, and a plan never has a second request out
before the first one is answered, nor gives a number twice (`Paced`).
-/

namespace Latency

/-! ## Requests and answers -/

def requestId? (m : Json) : Option Int :=
  match m.get? "id" with
  | some (.num (.int n)) => some n
  | _ => none

theorem requestId?_request (id : Nat) (method : String) (params : Json) :
    requestId? (Wire.request id method params) = some (id : Int) := by
  rfl

theorem requestId?_notification (method : String) (params : Json) :
    requestId? (Wire.notification method params) = none := by
  rfl

def track (ids : List Int) : Exchange → List Int
  | .wrote m => (requestId? m).toList ++ ids
  | .answered id _ => ids.erase id
  | .indexed => ids

def unanswered (es : List Exchange) : List Int :=
  es.foldl track []

/-- A plan that has at most one request out, and gives its requests the numbers `id`, `id + 1`,
... -/
inductive Paced : Nat → List Move → Prop where
  | nil (id : Nat) : Paced id []
  | notify {id : Nat} {m : Json} {plan : List Move} :
      requestId? m = none → Paced id plan → Paced id (.write m :: plan)
  | diagnose {id : Nat} {plan : List Move} : Paced id plan → Paced id (.diagnose :: plan)
  | request {id : Nat} {m : Json} {answer : Move} {plan : List Move} :
      requestId? m = some (id : Int) → answer = .await id ∨ answer = .accept id →
        Paced (id + 1) plan → Paced id (.write m :: answer :: plan)

theorem Follows.request_cases {id : Nat} {m : Json} {answer : Move} {plan : List Move}
    {es : List Exchange} (h : Follows (.write m :: answer :: plan) es)
    (hanswer : answer = .await id ∨ answer = .accept id) :
    es = [] ∨ es = [.wrote m] ∨
      ∃ response rest, es = .wrote m :: .answered id response :: rest ∧ Follows plan rest := by
  cases h with
  | stop => exact .inl rfl
  | write _ h =>
    right
    obtain rfl | rfl := hanswer
    · cases h with
      | stop => exact .inl rfl
      | await _ h => exact .inr ⟨_, _, rfl, h⟩
    · cases h with
      | stop => exact .inl rfl
      | accept _ _ h => exact .inr ⟨_, _, rfl, h⟩
      | refuse _ _ _ => exact .inr ⟨_, [], rfl, .stop plan⟩

theorem unanswered_notification {m : Json} (h : requestId? m = none) (es : List Exchange) :
    unanswered (.wrote m :: es) = unanswered es := by
  rw [unanswered, List.foldl_cons, track, h]
  rfl

theorem unanswered_answered {id : Nat} {m : Json} (h : requestId? m = some (id : Int))
    (response : Json) (es : List Exchange) :
    unanswered (.wrote m :: .answered id response :: es) = unanswered es := by
  rw [unanswered, List.foldl_cons, List.foldl_cons, track, h, track]
  simp [unanswered]

/-- At most one request is out. -/
theorem Paced.length_unanswered_le {id : Nat} {plan : List Move} (h : Paced id plan)
    {es : List Exchange} (hfollows : Follows plan es) : (unanswered es).length ≤ 1 := by
  induction h generalizing es with
  | nil =>
    cases hfollows
    exact Nat.zero_le _
  | notify hnone _ ih =>
    cases hfollows with
    | stop => exact Nat.zero_le _
    | write _ hrest =>
      rw [unanswered_notification hnone]
      exact ih hrest
  | diagnose _ ih =>
    cases hfollows with
    | stop => exact Nat.zero_le _
    | diagnose hrest =>
      have hle := ih hrest
      exact hle
  | request hid hanswer _ ih =>
    obtain rfl | rfl | ⟨response, rest, rfl, hrest⟩ := hfollows.request_cases hanswer
    · exact Nat.zero_le _
    · simp [unanswered, track, hid]
    · rw [unanswered_answered hid]
      exact ih hrest

theorem Paced.ids {id : Nat} {plan : List Move} (h : Paced id plan) {es : List Exchange}
    (hfollows : Follows plan es) :
    ∃ n, (written es).filterMap requestId? = (List.range' id n).map Nat.cast := by
  induction h generalizing es with
  | nil =>
    cases hfollows
    exact ⟨0, rfl⟩
  | notify hnone _ ih =>
    cases hfollows with
    | stop => exact ⟨0, rfl⟩
    | write _ hrest =>
      obtain ⟨n, hn⟩ := ih hrest
      refine ⟨n, ?_⟩
      rw [← hn]
      exact List.filterMap_cons_none hnone
  | diagnose _ ih =>
    cases hfollows with
    | stop => exact ⟨0, rfl⟩
    | diagnose hrest =>
      have hids := ih hrest
      exact hids
  | request hid hanswer _ ih =>
    obtain rfl | rfl | ⟨response, rest, rfl, hrest⟩ := hfollows.request_cases hanswer
    · exact ⟨0, rfl⟩
    · exact ⟨1, List.filterMap_cons_some hid⟩
    · obtain ⟨n, hn⟩ := ih hrest
      refine ⟨n + 1, ?_⟩
      rw [List.range'_succ, List.map_cons, ← hn]
      exact List.filterMap_cons_some hid

/-! ## The plans of the benchmarks are paced -/

section Plans

variable {τ : Type} {files : Files} {b : BenchSettings τ}

theorem paced_requestMoves (method : String) (params : Json) (id n : Nat) :
    Paced id (requestMoves method params id n) := by
  induction n generalizing id with
  | zero => exact .nil id
  | succ n ih => exact .request (requestId?_request id method params) (.inl rfl) (ih (id + 1))

theorem paced_editMoves (method uri : String) (id i : Nat) (edits : List ResolvedEdit) :
    Paced id (editMoves files method uri id i edits) := by
  induction edits generalizing id i with
  | nil => exact .nil id
  | cons edit rest ih =>
    unfold editMoves
    split
    · exact .nil id
    · have hrest : Paced (id + 1) (editMoves files method uri (id + 1) (i + 1) rest) := ih _ _
      apply Paced.notify (requestId?_notification _ _)
      exact .request (requestId?_request id method _) (.inl rfl) hrest

theorem paced_documentMoves {id : Nat} {after : List Move} (h : Paced id after) :
    Paced id (documentMoves files b after) := by
  unfold documentMoves
  split
  · exact .nil id
  · exact .notify (requestId?_notification _ _) (.diagnose h)

theorem Task.paced_plan (task : Task) (params : String → String → Json) (id : Nat) :
    Paced id (task.plan files b params id) := by
  have hmoves : Paced (id + 1) (task.moves files b params (id + 1)) := by
    cases task with
    | startup => exact .nil _
    | diagnostics => exact paced_documentMoves (.nil _)
    | requests method => exact paced_documentMoves (paced_requestMoves ..)
    | edits method list => exact paced_documentMoves (paced_editMoves ..)
  apply Paced.request (requestId?_request id "initialize" _) (.inr rfl)
  exact .notify (requestId?_notification _ _) hmoves

end Plans

/-! ## The sessions of a benchmark -/

variable {τ : Type} [Clock τ]

theorem Process.sent_terminate (p : Process τ) (now : τ) : (p.terminate now).sent = p.sent := by
  have hclose (q : Process τ) : (q.wait now).closeInput.sent = q.sent := by
    obtain ⟨code, hwait, -⟩ := q.wait_eq now
    rw [hwait]
    unfold closeInput
    split <;> rfl
  have hkill (q : Process τ) : q.kill.sent = q.sent := by
    rw [q.kill_eq]
  unfold terminate
  split
  · rfl
  · have hpoll := sent_poll { p with terminated := true } now
    simp only
    split
    · exact ((hclose _).trans (hkill _)).trans hpoll
    · exact (hclose _).trans hpoll

namespace Host

theorem files_start (server : Server) (directory : Path) (h : Host τ) :
    (h.start server directory).2.files = h.files := by
  rcases start_cases server directory h with ⟨_, _, hcase⟩ | ⟨_, _, _, _, _, hcase⟩
  · rw [hcase]
  · rw [hcase]

theorem sent_of_start_ok {server : Server} {directory : Path} {h next : Host τ} {p : Process τ}
    (hstart : h.start server directory = (.ok p, next)) : p.sent = [] := by
  rcases start_cases server directory h with ⟨_, _, hcase⟩ | ⟨_, _, _, _, _, hcase⟩
  · cases (Prod.mk.inj (hcase.symm.trans hstart)).1
  · obtain ⟨hp, -⟩ := Prod.mk.inj (hcase.symm.trans hstart)
    rw [← Except.ok.inj hp]
    exact Process.sent_startAll ..

end Host

/-- A process whose session followed a plan.  The session began with a process that had got nothing
yet, and was closed in the end. -/
structure Launched.Followed (plan : List Move) (l : Launched τ) (es : List Exchange) : Prop where
  run : ∃ label tracing clock p s, p.sent = [] ∧
    Session.Run (Session.attach label tracing 1024 clock p) es s ∧ l.process = s.close.process
  follows : Follows plan es
  sent_eq : l.process.sent = written es

/-- Between two moments at which no session is open, the sessions that were opened and closed
followed a plan. -/
def Host.Planned (plan : Files → List Move) (h h' : Host τ) : Prop :=
  h'.files = h.files ∧ ∃ closed, h'.launched = h.launched ++ closed ∧
    ∀ l ∈ closed, ∃ es, l.Followed (plan h.files) es

theorem Host.composes_planned (plan : Files → List Move) :
    Host.Composes fun h h' : Host τ => h.Planned plan h' where
  refl h := ⟨rfl, [], (List.append_nil _).symm, by simp⟩
  trans := by
    rintro h h' h'' ⟨hfiles, closed, hlaunched, hfirst⟩ ⟨hfiles', closed', hlaunched', hsecond⟩
    refine ⟨hfiles'.trans hfiles, closed ++ closed', ?_, ?_⟩
    · rw [hlaunched', hlaunched, List.append_assoc]
    · rw [hfiles] at hsecond
      intro l hl
      exact (List.mem_append.1 hl).elim (hfirst l) (hsecond l)

/-- A session that is worked with and closed has followed its plan. -/
theorem Host.withSession_planned {α : Type} {server : Server} {directory : Path} {tracing : Bool}
    {work : Session τ → α × Session τ} {h next : Host τ} {result : Except SessionError α}
    {plan : Files → List Move}
    (hsession : h.withSession server directory tracing work = (result, next))
    (hwork : ∀ s : Session τ, s.nextId = 1 → Session.Plays (plan h.files) s (work s).2) :
    h.Planned plan next := by
  have hfiles := h.files_start server directory
  unfold withSession at hsession
  split at hsession
  · next hstart =>
    obtain ⟨-, rfl⟩ := Prod.mk.inj hsession
    rw [hstart] at hfiles
    exact ⟨hfiles, [], by rw [(start_error hstart).launched], by simp⟩
  · next p started hstart =>
    obtain ⟨-, rfl⟩ := Prod.mk.inj hsession
    rw [hstart] at hfiles
    obtain ⟨-, hlaunched, -⟩ := start_ok hstart
    obtain ⟨es, hrun, hfollows⟩ :=
      hwork (Session.attach server.label tracing 1024 started.clock p) rfl
    generalize (work _).2 = worked at hrun ⊢
    have hnothing := sent_of_start_ok hstart
    refine ⟨hfiles, _, congrArg (· ++ _) hlaunched, ?_⟩
    intro l hl
    rw [List.mem_singleton] at hl
    subst hl
    refine ⟨es, ⟨_, _, _, p, _, hnothing, hrun, rfl⟩, hfollows, ?_⟩
    calc (worked.close.process).sent
        = worked.process.sent := Process.sent_terminate _ _
      _ = p.sent ++ written es := hrun.sent_eq
      _ = written es := by rw [hnothing, List.nil_append]

/-- What a benchmark writes on each of its sessions is the first of its messages. -/
theorem Task.run_follows (task : Task) (b : BenchSettings τ) (params : String → String → Json)
    (server : Server) (h : Host τ) :
    ∃ closed, (task.run b params server h).2.launched = h.launched ++ closed ∧
      ∀ l ∈ closed, ∃ es, l.Followed (task.plan h.files b params 1) es ∧
        l.process.sent <+: task.messages h.files b params := by
  have hplanned :
      h.Planned (fun files => task.plan files b params 1) (task.run b params server h).2 := by
    apply Task.run_across (Host.composes_planned _)
    intro α work h next result hwork hsession
    refine Host.withSession_planned hsession fun s hnext => ?_
    have hplays := task.after_plays h.files b params s
    rwa [hnext, ← hwork] at hplays
  obtain ⟨-, closed, hlaunched, hfollowed⟩ := hplanned
  refine ⟨closed, hlaunched, fun l hl => ?_⟩
  obtain ⟨es, hl⟩ := hfollowed l hl
  refine ⟨es, hl, ?_⟩
  rw [hl.sent_eq]
  exact hl.follows.written_prefix.trans (task.messagesOf_plan h.files b params)

/-- **The protocol on the wire.**  Whatever the servers do, what a benchmark writes on each of its
sessions is the first of its messages, and each of them is written when all that the plan has in
front of it was written, answered and indexed; so no two requests are out at a time, and no number
is given twice. -/
theorem Task.run_keeps_protocol (task : Task) (b : BenchSettings τ)
    (params : String → String → Json) (server : Server) (h : Host τ) :
    ∃ closed, (task.run b params server h).2.launched = h.launched ++ closed ∧
      ∀ l ∈ closed, ∃ es, l.Followed (task.plan h.files b params 1) es ∧
        l.process.sent <+: task.messages h.files b params ∧
        (∀ front, front <+: es → (unanswered front).length ≤ 1) ∧
        (l.process.sent.filterMap requestId?).Nodup := by
  obtain ⟨closed, hlaunched, hsessions⟩ := task.run_follows b params server h
  refine ⟨closed, hlaunched, fun l hl => ?_⟩
  obtain ⟨es, hl, hsent⟩ := hsessions l hl
  have hpaced : Paced 1 (task.plan h.files b params 1) := task.paced_plan params 1
  refine ⟨es, hl, hsent, ?_, ?_⟩
  · intro front hfront
    exact hpaced.length_unanswered_le (hl.follows.of_prefix hfront)
  · obtain ⟨n, hids⟩ := hpaced.ids hl.follows
    rw [hl.sent_eq, hids]
    exact List.Nodup.map Nat.cast_injective List.nodup_range'

section Edited

def editedSettings : BenchSettings Rat where
  directory := ⟨"/", []⟩
  rootUri := "file:///"
  target := ⟨"/", ["a.sol"]⟩
  warmup := 0
  iterations := 1
  timeout := 2
  indexTimeout := 2

def editedHost : Host Rat where
  clock := 0
  files := ⟨⟨"/", []⟩,
    [(["a.sol"], .file (Frame.ascii "old")), (["b.sol"], .file (Frame.ascii "new"))]⟩
  servers := [("server",
    [{  out := [⟨1, .message (.obj [("method", .str publishDiagnostics),
          ("params", .obj [("diagnostics", .arr [.null])])])⟩]
        replies := [("textDocument/hover", [[⟨1, .respond "result" (.int 7)⟩]])] }])]
  now := { date := ⟨2026, 2, 13⟩ }

/-- A benchmark of one edit writes these five messages. -/
theorem Task.run_keeps_protocol_edit :
    let task := Task.edits "textDocument/hover" [⟨⟨"/", ["b.sol"]⟩, 3, 4, none⟩]
    ∃ l, (task.run editedSettings (fun _ _ => .null) { label := "s", cmd := "server" }
        editedHost).2.launched = [l] ∧
      l.process.sent = [
        .obj [("jsonrpc", .str "2.0"), ("id", .int 1), ("method", .str "initialize"),
          ("params", .obj [("processId", .int clientPid), ("rootUri", .str "file:///"),
            ("capabilities", clientCapabilities)])],
        .obj [("jsonrpc", .str "2.0"), ("method", .str "initialized"), ("params", .obj [])],
        .obj [("jsonrpc", .str "2.0"), ("method", .str "textDocument/didOpen"),
          ("params", .obj [("textDocument", .obj [("uri", .str "file:///a.sol"),
            ("languageId", .str "solidity"), ("version", .int 1), ("text", .str "old")])])],
        .obj [("jsonrpc", .str "2.0"), ("method", .str "textDocument/didChange"),
          ("params", .obj [
            ("textDocument", .obj [("uri", .str "file:///a.sol"), ("version", .int 2)]),
            ("contentChanges", .arr [.obj [("text", .str "new")]])])],
        .obj [("jsonrpc", .str "2.0"), ("id", .int 2), ("method", .str "textDocument/hover"),
          ("params", .obj [("textDocument", .obj [("uri", .str "file:///a.sol")]),
            ("position", .obj [("line", .int 3), ("character", .int 4)])])]] := by
  intro task
  obtain ⟨closed, hlaunched, hsessions⟩ := task.run_keeps_protocol editedSettings
    (fun _ _ => .null) { label := "s", cmd := "server" } editedHost
  have hcounts : (task.run editedSettings (fun _ _ => .null) { label := "s", cmd := "server" }
      editedHost).2.launched.map (·.process.sent.length) = [5] := by decide +kernel
  obtain ⟨l, hl⟩ := List.length_eq_one_iff.1 (by simpa using congrArg List.length hcounts)
  have hclosed : [l] = closed := hl.symm.trans hlaunched
  obtain ⟨es, -, hsent, -⟩ := hsessions l (hclosed ▸ List.mem_singleton_self l)
  have hlength : l.process.sent.length = 5 := by
    rw [hl] at hcounts
    exact List.singleton_inj.1 hcounts
  have hold : editedHost.files.readText editedSettings.target = .ok "old" := by decide +kernel
  have hnew : editedHost.files.readText ⟨"/", ["b.sol"]⟩ = .ok "new" := by decide +kernel
  have huri : (Path.resolve editedHost.files.base editedSettings.target).uri = "file:///a.sol" := by
    decide +kernel
  have hmessages : task.messages editedHost.files editedSettings (fun _ _ => .null) =
      Wire.handshake 1 "file:///" :: Wire.initialized ::
        [Wire.didOpen "file:///a.sol" "solidity" "old", Wire.didChange "file:///a.sol" 2 "new",
          Wire.request 2 "textDocument/hover"
            (Params.build "textDocument/hover" "file:///a.sol" 3 4 none)] := by
    simp only [task, Task.messages, documentMessages, hold, Session.openMessage, targetUri, huri,
      List.zipIdx_cons, List.zipIdx_nil, List.flatMap_cons, List.flatMap_nil, editMessages, hnew]
    rfl
  refine ⟨l, hl, ?_⟩
  rw [hmessages] at hsent
  rw [hsent.eq_of_length hlength]
  rfl

end Edited

end Latency
