import Latency.Sweep
import Latency.Proofs.Session.Plan
/-!
# The plans of the benchmarks

What each benchmark does with one session: the handshake, the document and its diagnostics, and then
requests, each behind the answer to the one before it, or edits with a request behind each.  On
every way out of a benchmark its session has played a part of that plan (`Task.after_plays`).
-/

namespace Latency

variable {τ : Type}

/-! ## Plans -/

def targetUri (files : Files) (b : BenchSettings τ) : String :=
  (Path.resolve files.base b.target).uri

def documentMoves (files : Files) (b : BenchSettings τ) (after : List Move) : List Move :=
  match files.readText b.target with
  | .error _ => []
  | .ok text => .write (Session.openMessage files b.target b.languageId text) :: .diagnose :: after

def requestMoves (method : String) (params : Json) (id : Nat) : Nat → List Move
  | 0 => []
  | n + 1 =>
    .write (Wire.request id method params) :: .await id :: requestMoves method params (id + 1) n

/-- The edits from number `i` on, up to one that cannot be read, each with a request; the first of
these has the number `id`. -/
def editMoves (files : Files) (method uri : String) (id i : Nat) : List ResolvedEdit → List Move
  | [] => []
  | edit :: rest =>
    match files.readText edit.path with
    | .error _ => []
    | .ok text =>
      .write (Wire.didChange uri (i + 2) text) ::
        .write (Wire.request id method (Params.build method uri edit.line edit.col none)) ::
        .await id :: editMoves files method uri (id + 1) (i + 1) rest

/-- What a benchmark does behind the handshake with a session, from request number `id` on. -/
def Task.moves (files : Files) (b : BenchSettings τ) (params : String → String → Json) (id : Nat) :
    Task → List Move
  | .startup => []
  | .diagnostics => documentMoves files b []
  | .requests method =>
    documentMoves files b (requestMoves method (params method (targetUri files b)) id b.total)
  | .edits method list =>
    documentMoves files b (editMoves files method (targetUri files b) id 0 list)

def Task.plan (files : Files) (b : BenchSettings τ) (params : String → String → Json) (id : Nat)
    (task : Task) : List Move :=
  Session.handshakeMoves id b.rootUri ++ task.moves files b params (id + 1)

/-! ## The messages of a plan -/

def documentMessages (files : Files) (b : BenchSettings τ) (later : List Json) : List Json :=
  match files.readText b.target with
  | .error _ => []
  | .ok text => Session.openMessage files b.target b.languageId text :: later

/-- The change to edit number `i` and the request behind it.  The document was opened as version 1,
and the handshake was request 1, so both have the number `i + 2`. -/
def editMessages (files : Files) (method uri : String) (i : Nat) (edit : ResolvedEdit) :
    List Json :=
  match files.readText edit.path with
  | .error _ => []
  | .ok text =>
    [Wire.didChange uri (i + 2) text,
      Wire.request (i + 2) method (Params.build method uri edit.line edit.col none)]

/-- The messages of a benchmark on a session that has sent nothing yet. -/
def Task.messages (files : Files) (b : BenchSettings τ) (params : String → String → Json)
    (task : Task) : List Json :=
  Wire.handshake 1 b.rootUri ::
    Wire.initialized ::
    match task with
    | .startup => []
    | .diagnostics => documentMessages files b []
    | .requests method =>
      documentMessages files b <| (List.range' 2 b.total).map fun id =>
        Wire.request id method (params method (targetUri files b))
    | .edits method list =>
      documentMessages files b <| list.zipIdx.flatMap fun (edit, i) =>
        editMessages files method (targetUri files b) i edit

theorem messagesOf_documentMoves {files : Files} {b : BenchSettings τ} {after : List Move}
    {later : List Json} (h : messagesOf after <+: later) :
    messagesOf (documentMoves files b after) <+: documentMessages files b later := by
  unfold documentMoves documentMessages
  split
  · exact List.nil_prefix
  · exact (List.prefix_cons_inj _).2 h

theorem messagesOf_requestMoves (method : String) (params : Json) (id n : Nat) :
    messagesOf (requestMoves method params id n) =
      (List.range' id n).map fun id => Wire.request id method params := by
  induction n generalizing id with
  | zero => rfl
  | succ n ih =>
    rw [List.range'_succ, List.map_cons, ← ih (id + 1)]
    rfl

theorem messagesOf_editMoves (files : Files) (method uri : String) (i : Nat)
    (edits : List ResolvedEdit) :
    messagesOf (editMoves files method uri (i + 2) i edits) <+:
      (edits.zipIdx i).flatMap fun (edit, i) => editMessages files method uri i edit := by
  induction edits generalizing i with
  | nil => exact List.nil_prefix
  | cons edit rest ih =>
    rw [List.zipIdx_cons, List.flatMap_cons]
    cases hread : files.readText edit.path with
    | error cause => simp [editMoves, hread, messagesOf]
    | ok text =>
      have hedit : editMessages files method uri i edit =
          [Wire.didChange uri (i + 2) text,
            Wire.request (i + 2) method (Params.build method uri edit.line edit.col none)] := by
        rw [editMessages, hread]
      simp only [editMoves, hread, hedit]
      exact (List.prefix_append_right_inj [_, _]).2 (ih (i + 1))

/-- The plan of a benchmark writes the messages of it, up to an edit that cannot be read. -/
theorem Task.messagesOf_plan (files : Files) (b : BenchSettings τ)
    (params : String → String → Json) (task : Task) :
    messagesOf (task.plan files b params 1) <+: task.messages files b params := by
  have hmoves (later : List Json) (h : messagesOf (task.moves files b params 2) <+: later) :
      messagesOf (task.plan files b params 1) <+:
        Wire.handshake 1 b.rootUri ::
          Wire.initialized :: later :=
    (List.prefix_append_right_inj [_, _]).2 h
  apply hmoves
  cases task with
  | startup => exact List.nil_prefix
  | diagnostics => exact messagesOf_documentMoves List.nil_prefix
  | requests method =>
    apply messagesOf_documentMoves
    exact messagesOf_requestMoves .. ▸ List.prefix_rfl
  | edits method list => exact messagesOf_documentMoves (messagesOf_editMoves files method _ 0 list)

/-! ## Preparation -/

namespace Session

variable [Clock τ] {s t : Session τ} {files : Files} {b : BenchSettings τ}

theorem openTarget_error {e : SessionError} (h : s.openTarget files b = (.error e, t))
    (rest : List Move) : Plays (handshakeMoves s.nextId b.rootUri ++ rest) s t := by
  unfold openTarget at h
  split at h
  · next hhandshake =>
    obtain ⟨-, rfl⟩ := Prod.mk.inj h
    exact handshake_error hhandshake rest
  · next hhandshake =>
    have hshaken := (handshake_ok hhandshake).2
    have hopen := (openFile_error h).2
    exact (hshaken.trans hopen).stops rest

theorem openTarget_ok {uri : String} (h : s.openTarget files b = (.ok uri, t)) :
    uri = targetUri files b ∧ t.nextId = s.nextId + 1 ∧
      ∃ text, files.readText b.target = .ok text ∧
        Leads (handshakeMoves s.nextId b.rootUri ++
          [.write (openMessage files b.target b.languageId text)]) s t := by
  unfold openTarget at h
  split at h
  · cases (Prod.mk.inj h).1
  · next hhandshake =>
    obtain ⟨hnext, hshaken⟩ := handshake_ok hhandshake
    obtain ⟨huri, hkept, text, hread, hopen⟩ := openFile_ok h
    exact ⟨huri, hkept.trans hnext, text, hread, hshaken.trans hopen⟩

theorem plays_document {text : String} (hread : files.readText b.target = .ok text) {id : Nat}
    (hopen : Leads (handshakeMoves id b.rootUri ++
      [.write (openMessage files b.target b.languageId text)]) s t) {after : List Move}
    {u : Session τ} (hplays : Plays (.diagnose :: after) t u) :
    Plays (handshakeMoves id b.rootUri ++ documentMoves files b after) s u := by
  have hwhole := hopen _ u hplays
  rw [List.append_assoc] at hwhole
  rw [documentMoves, hread]
  exact hwhole

theorem prepare_error {lines : List String} {outcome : Ended τ}
    (h : s.prepare files b = (lines, .error outcome, t)) (after : List Move) :
    Plays (handshakeMoves s.nextId b.rootUri ++ documentMoves files b after) s t := by
  unfold prepare at h
  split at h
  · next e next hopen =>
    obtain ⟨-, hrest⟩ := Prod.mk.inj h
    obtain ⟨-, rfl⟩ := Prod.mk.inj hrest
    exact (openTarget_error hopen _).silent_last (.look next)
  · next uri next hopen =>
    obtain ⟨-, -, text, hread, hopened⟩ := openTarget_ok hopen
    split at h
    · next e last hwait =>
      obtain ⟨-, hrest⟩ := Prod.mk.inj h
      obtain ⟨-, rfl⟩ := Prod.mk.inj hrest
      have hwaited := (waitForDiagnostics_error hwait).2.stops (.diagnose :: after)
      exact (plays_document hread hopened hwaited).silent_last (.look last)
    · cases (Prod.mk.inj (Prod.mk.inj h).2).1

theorem prepare_ok {lines : List String} {ready : Ready τ}
    (h : s.prepare files b = (lines, .ok ready, t)) :
    ready.uri = targetUri files b ∧ t.nextId = s.nextId + 1 ∧
      ∀ after u, Plays after t u →
        Plays (handshakeMoves s.nextId b.rootUri ++ documentMoves files b after) s u := by
  unfold prepare at h
  split at h
  · cases (Prod.mk.inj (Prod.mk.inj h).2).1
  · next uri next hopen =>
    obtain ⟨huri, hnext, text, hread, hopened⟩ := openTarget_ok hopen
    split at h
    · cases (Prod.mk.inj (Prod.mk.inj h).2).1
    · next info last hwait =>
      obtain ⟨hkept, hindexed⟩ := waitForDiagnostics_ok hwait
      obtain ⟨-, hrest⟩ := Prod.mk.inj h
      obtain ⟨hready, rfl⟩ := Prod.mk.inj hrest
      obtain rfl := Except.ok.inj hready
      refine ⟨huri, hkept.trans hnext, fun after u hplays => ?_⟩
      have hlooked := (Step.look last).leads_silent after u hplays
      exact plays_document hread hopened (hindexed after u hlooked)

theorem prepareAndWork_plays {work : Ready τ → Session τ → Report τ × Session τ}
    {after : List Move}
    (hwork : ∀ ready (t : Session τ), ready.uri = targetUri files b → t.nextId = s.nextId + 1 →
      Plays after t (work ready t).2) :
    Plays (handshakeMoves s.nextId b.rootUri ++ documentMoves files b after) s
      (s.prepareAndWork files b work).2 := by
  unfold prepareAndWork
  split
  · next hprepare => exact prepare_error hprepare after
  · next lines ready next hprepare =>
    obtain ⟨huri, hnext, hprepared⟩ := prepare_ok hprepare
    exact hprepared after _ (hwork ready next huri hnext)

end Session

/-! ## The rounds of the benchmarks -/

section Rounds

open Session (Plays Leads)

variable [Clock τ] {s t : Session τ}

theorem shakeHands_plays (b : BenchSettings τ) (s : Session τ) :
    Plays (Session.handshakeMoves s.nextId b.rootUri) s (shakeHands b s).2 := by
  rw [← List.append_nil (Session.handshakeMoves s.nextId b.rootUri)]
  unfold shakeHands
  split
  · next hhandshake => exact Session.handshake_error hhandshake []
  · next hhandshake => exact (Session.handshake_ok hhandshake).2.stops []

theorem indexDocument_plays (files : Files) (b : BenchSettings τ) (s : Session τ) :
    Plays (Session.handshakeMoves s.nextId b.rootUri ++ documentMoves files b []) s
      (indexDocument files b s).2 := by
  unfold indexDocument
  split
  · next hhandshake => exact Session.handshake_error hhandshake _
  · next hhandshake =>
    have hshaken := (Session.handshake_ok hhandshake).2
    split
    · next hopen => exact (hshaken.trans (Session.openFile_error hopen).2).stops _
    · next hopen =>
      obtain ⟨-, -, text, hread, hopened⟩ := Session.openFile_ok hopen
      have hdocument := hshaken.trans hopened
      split
      · next e next hwait =>
        have hwaited := (Session.waitForDiagnostics_error hwait).2.stops [.diagnose]
        exact (Session.plays_document hread hdocument hwaited).silent_last (.look next)
      · next hwait =>
        have hindexed := (Session.waitForDiagnostics_ok hwait).2.stops []
        exact (Session.plays_document hread hdocument hindexed).silent_last (.look _)

theorem timedRequest_error {method : String} {params : Json} {timeout : τ} {e : SessionError}
    (h : timedRequest method params timeout s = (.error e, t)) (rest : List Move) :
    Plays (.write (Wire.request s.nextId method params) :: rest) s t := by
  unfold timedRequest at h
  split at h
  · next hrequest =>
    obtain ⟨-, rfl⟩ := Prod.mk.inj h
    exact Session.request_error hrequest rest
  · cases (Prod.mk.inj h).1

theorem timedRequest_ok {method : String} {params : Json} {timeout : τ} {answer : Json × τ}
    (h : timedRequest method params timeout s = (.ok answer, t)) :
    t.nextId = s.nextId + 1 ∧
      Leads [.write (Wire.request s.nextId method params), .await s.nextId] s t := by
  unfold timedRequest at h
  split at h
  · cases (Prod.mk.inj h).1
  · next hrequest =>
    obtain ⟨-, rfl⟩ := Prod.mk.inj h
    obtain ⟨hnext, mid, hwritten, hanswer⟩ := Session.request_ok hrequest
    exact ⟨hnext, hwritten.trans (Session.leads_await hanswer)⟩

theorem requestRounds_plays (b : BenchSettings τ) (method : String) (params : Json)
    (ready : Session.Ready τ) (samples : List (Sample τ)) (i n : Nat) (s : Session τ) :
    Plays (requestMoves method params s.nextId n) s
      (requestRounds b method params ready samples i n s).2 := by
  induction n generalizing s samples i with
  | zero => exact Session.plays_self _ s
  | succ n ih =>
    unfold requestRounds
    split
    · next htimed => exact timedRequest_error htimed _
    · next response ms next htimed =>
      obtain ⟨hnext, hanswered⟩ := timedRequest_ok htimed
      rw [requestMoves, ← hnext]
      split
      · exact hanswered _ _ (ih _ _ next)
      · split
        · exact hanswered _ _ (ih _ _ next)
        · exact hanswered.stops _

theorem editRounds_plays (files : Files) (b : BenchSettings τ) (method : String) (total : Nat)
    (ready : Session.Ready τ) (samples : List (Sample τ)) (i : Nat) (edits : List ResolvedEdit)
    (s : Session τ) :
    Plays (editMoves files method ready.uri s.nextId i edits) s
      (editRounds files b method total ready samples i edits s).2 := by
  induction edits generalizing s samples i with
  | nil => exact Session.plays_self _ s
  | cons edit rest ih =>
    unfold editRounds editMoves
    cases hread : files.readText edit.path with
    | error cause => exact Session.plays_self _ s
    | ok text =>
      simp only
      split
      · next hchange => exact (Session.notify_error hchange).2.stops _
      · next changed hchange =>
        obtain ⟨hkept, hchanged⟩ := Session.notify_ok hchange
        rw [← hkept]
        split
        · next htimed => exact hchanged _ _ (timedRequest_error htimed _)
        · next response ms next htimed =>
          obtain ⟨hnext, hanswered⟩ := timedRequest_ok htimed
          rw [← hnext]
          exact (hchanged.trans hanswered) _ _ (ih _ _ next)

def Task.after (files : Files) (b : BenchSettings τ) (params : String → String → Json)
    (task : Task) (s : Session τ) : Session τ :=
  match task with
  | .startup => (shakeHands b s).2
  | .diagnostics => (indexDocument files b s).2
  | .requests method =>
    (s.prepareAndWork files b fun ready s =>
      requestRounds b method (params method ready.uri) ready [] 0 b.total s).2
  | .edits method list =>
    (s.prepareAndWork files b fun ready s =>
      editRounds files b method list.length ready [] 0 list s).2

/-- **A session plays the plan of its benchmark**, whatever its server does. -/
theorem Task.after_plays (files : Files) (b : BenchSettings τ) (params : String → String → Json)
    (task : Task) (s : Session τ) :
    Plays (task.plan files b params s.nextId) s (task.after files b params s) := by
  cases task with
  | startup =>
    rw [Task.plan, Task.moves, List.append_nil]
    exact shakeHands_plays b s
  | diagnostics => exact indexDocument_plays files b s
  | requests method =>
    apply Session.prepareAndWork_plays
    intro ready t huri hnext
    rw [← huri, ← hnext]
    exact requestRounds_plays b method _ ready [] 0 b.total t
  | edits method list =>
    apply Session.prepareAndWork_plays
    intro ready t huri hnext
    rw [← huri, ← hnext]
    exact editRounds_plays files b method list.length ready [] 0 list t

end Rounds

end Latency
