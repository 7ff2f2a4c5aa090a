import Latency.Session.Request
import Latency.Proofs.Session.Drain
/-!
# The log of a session

The log of a session has the texts of the messages that it took and that are to be logged, in the
order in which they came, each once (`runAll_logs`).  Waits alone take anything, and they take it
from the front of what is ahead of the session; every other operation leaves the queue as it is.
-/

namespace Latency

/-! ## Messages that are logged -/

/-- A message that is to be logged, with its text. -/
structure IsLog (m : Json) (text : String) : Prop where
  method : m.get? "method" = some (.str "window/logMessage")
  message : ∃ params value, m.get? "params" = some (.obj params) ∧
    params.lookup "message" = some value ∧ value ≠ .null ∧ value.display = text

theorem logText?_eq_some_iff {m : Json} {text : String} :
    logText? m = some text ↔ IsLog m text := by
  constructor
  · intro h
    unfold logText? at h
    split at h
    · next params hmethod hparams =>
      split at h
      · cases h
      · cases h
      · next value hnull hvalue =>
        exact ⟨hmethod, params, value, hparams, hvalue, hnull, Option.some.inj h⟩
    · cases h
  · rintro ⟨hmethod, params, value, hparams, hvalue, hnull, rfl⟩
    unfold logText?
    simp only [hmethod, hparams, hvalue]

/-- The texts of those messages that are to be logged, in order, each once. -/
inductive LogsOf : List Json → List String → Prop where
  | nil : LogsOf [] []
  | log {m : Json} {text : String} {ms : List Json} {texts : List String} :
      IsLog m text → LogsOf ms texts → LogsOf (m :: ms) (text :: texts)
  | other {m : Json} {ms : List Json} {texts : List String} :
      (∀ text, ¬ IsLog m text) → LogsOf ms texts → LogsOf (m :: ms) texts

theorem logsOf_filterMap (ms : List Json) : LogsOf ms (ms.filterMap logText?) := by
  induction ms with
  | nil => exact .nil
  | cons m ms ih =>
    cases htext : logText? m with
    | none =>
      rw [List.filterMap_cons_none htext]
      refine .other (fun text hlog => ?_) ih
      cases htext.symm.trans (logText?_eq_some_iff.2 hlog)
    | some text =>
      rw [List.filterMap_cons_some htext]
      exact .log (logText?_eq_some_iff.1 htext) ih

namespace Session

variable {τ : Type} [Clock τ]

/-! ## Operations -/

inductive Operation (τ : Type) where
  | send (method : String) (params : Json)
  | notify (method : String) (params : Json)
  | readResponse (id : Json) (timeout : τ)
  | waitForDiagnostics (timeout : τ)
  | openFile (files : Files) (path : Path) (languageId : String)
  | changeFile (uri : String) (version : Json) (text : String)
  | residentMemory
  | sleep (seconds : τ)
  | close

namespace Operation

def run : Operation τ → Session τ → Session τ
  | .send method params, s => (s.send method params).2
  | .notify method params, s => (s.notify method params).2
  | .readResponse id timeout, s => (s.readResponse id timeout).2
  | .waitForDiagnostics timeout, s => (s.waitForDiagnostics timeout).2
  | .openFile files path languageId, s => (s.openFile files path languageId).2
  | .changeFile uri version text, s => (s.changeFile uri version text).2
  | .residentMemory, s => s.residentMemory.2
  | .sleep seconds, s => s.sleep seconds
  | .close, s => s.close

def IsWait : Operation τ → Prop
  | .readResponse .. | .waitForDiagnostics .. => True
  | _ => False

instance : (op : Operation τ) → Decidable op.IsWait
  | .readResponse .. | .waitForDiagnostics .. => .isTrue trivial
  | .send .. | .notify .. | .openFile .. | .changeFile .. | .residentMemory | .sleep _ | .close =>
    .isFalse id

/-- The items that an operation takes: those that are ahead of the session before a wait and not
behind it. -/
def taken (op : Operation τ) (s : Session τ) : List Item :=
  if op.IsWait then s.stream.take (s.stream.length - (op.run s).stream.length) else []

end Operation

def runAll (ops : List (Operation τ)) (s : Session τ) : Session τ :=
  ops.foldl (fun s op => op.run s) s

/-- The messages that operations take from a session, in order. -/
def consumed : List (Operation τ) → Session τ → List Json
  | [], _ => []
  | op :: rest, s => messagesIn (op.taken s) ++ consumed rest (op.run s)

/-! ## Operations that take nothing -/

/-- A session with the same queue and the same log. -/
structure Quiet (s t : Session τ) : Prop where
  queue_eq : t.pipe.queue = s.pipe.queue
  logs_eq : t.logs = s.logs

omit [Clock τ] in
theorem note_quiet (line : String) (s : Session τ) : Quiet s (s.note line) := by
  unfold note
  split <;> exact ⟨rfl, rfl⟩

theorem write_quiet (method : String) (m : Json) (s : Session τ) :
    Quiet s (s.write method m).2 := by
  have hnoted := note_quiet ("[" ++ s.label ++ " ->] " ++ method) s
  unfold write
  simp only
  split <;> exact ⟨hnoted.queue_eq, hnoted.logs_eq⟩

theorem send_quiet (method : String) (params : Json) (s : Session τ) :
    Quiet s (s.send method params).2 := by
  have hwritten := write_quiet method (requestMessage s.nextId method params)
    { s with nextId := s.nextId + 1 }
  unfold send
  simp only
  split <;> next hwrite =>
    rw [hwrite] at hwritten
    exact ⟨hwritten.queue_eq, hwritten.logs_eq⟩

theorem openFile_quiet (files : Files) (path : Path) (languageId : String) (s : Session τ) :
    Quiet s (s.openFile files path languageId).2 := by
  unfold openFile
  split
  · exact ⟨rfl, rfl⟩
  · next text _ =>
    have hwritten := write_quiet "textDocument/didOpen"
      (notificationMessage "textDocument/didOpen"
        (openParams (Path.resolve files.base path).uri languageId text)) s
    simp only [notify]
    split <;> next hwrite =>
      rw [hwrite] at hwritten
      exact hwritten

namespace Operation

variable {op : Operation τ}

theorem quiet_of_not_isWait (h : ¬ op.IsWait) (s : Session τ) : Quiet s (op.run s) := by
  cases op with
  | send method params => exact send_quiet method params s
  | notify method params => exact write_quiet method _ s
  | readResponse | waitForDiagnostics => exact absurd trivial h
  | openFile files path languageId => exact openFile_quiet files path languageId s
  | changeFile uri version text => exact write_quiet _ _ s
  | residentMemory | sleep | close => exact ⟨rfl, rfl⟩

theorem exists_drains (h : op.IsWait) (s : Session τ) : ∃ items, Drains s items (op.run s) := by
  cases op with
  | readResponse id timeout => exact readResponse_drains id timeout s
  | waitForDiagnostics timeout => exact waitForDiagnostics_drains timeout s
  | send | notify | openFile | changeFile | residentMemory | sleep | close => exact absurd h id

theorem drains_taken (h : op.IsWait) (s : Session τ) : Drains s (op.taken s) (op.run s) := by
  obtain ⟨items, hdrains⟩ := exists_drains h s
  have htaken : op.taken s = items := by
    rw [taken, if_pos h, hdrains.stream_eq, List.length_append, Nat.add_sub_cancel,
      List.take_left]
  rw [htaken]
  exact hdrains

theorem run_logs (op : Operation τ) (s : Session τ) :
    (op.run s).logs = s.logs ++ (messagesIn (op.taken s)).filterMap logText? := by
  by_cases h : op.IsWait
  · exact (drains_taken h s).logs_eq
  · rw [(quiet_of_not_isWait h s).logs_eq, taken, if_neg h]
    exact (List.append_nil _).symm

end Operation

/-- The log grows by the texts of the messages that were consumed. -/
theorem runAll_logs (ops : List (Operation τ)) (s : Session τ) :
    (runAll ops s).logs = s.logs ++ (consumed ops s).filterMap logText? := by
  induction ops generalizing s with
  | nil => exact (List.append_nil _).symm
  | cons op rest ih =>
    have hrest : (runAll (op :: rest) s).logs = (runAll rest (op.run s)).logs := rfl
    rw [hrest, ih, op.run_logs, consumed, List.filterMap_append, List.append_assoc]

theorem runAll_logsOf (ops : List (Operation τ)) {s : Session τ} (h : s.logs = []) :
    LogsOf (consumed ops s) (runAll ops s).logs := by
  rw [runAll_logs, h]
  exact logsOf_filterMap _

end Session

end Latency
