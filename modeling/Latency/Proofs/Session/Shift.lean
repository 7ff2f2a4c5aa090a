import Latency.Bench.Basic
import Latency.Proofs.Session.Incoming
import Latency.Proofs.Session.Receiving
/-!
# The same session at another time

On an exact clock nothing that a session does depends on when it does it: delays count from the
moment at which something is started, deadlines from the moment at which a wait begins, and what is
measured is the time between two moments.  So a session that is shifted in time, with a process of
another number on a machine with another history, does the same at every step (`Session.shift`).
-/

namespace Latency

/-- Another moment, and what a process has there that is not its own doing: its number, and the
calls on all processes of the machine. -/
structure Shift where
  delay : Rat
  pid : Int
  log : List (Int × ProcessEvent)

namespace Shift

variable (k : Shift)

def time (t : Rat) : Rat := t + k.delay

def arrivals (pending : List (Rat × Arrival)) : List (Rat × Arrival) :=
  pending.map fun a => (k.time a.1, a.2)

/-! ## Clocks -/

@[simp] theorem add_time (t seconds : Rat) :
    Clock.add (k.time t) seconds = k.time (Clock.add t seconds) :=
  add_right_comm t k.delay seconds

@[simp] theorem sub_time (t u : Rat) : Clock.sub (k.time t) (k.time u) = Clock.sub t u :=
  add_sub_add_right_eq_sub t u k.delay

@[simp] theorem before_time (t u : Rat) : Clock.before (k.time t) (k.time u) = Clock.before t u :=
  decide_eq_decide.2 (add_lt_add_iff_right k.delay)

@[simp] theorem upTo_time (t u : Rat) : Clock.upTo (k.time t) (k.time u) = Clock.upTo t u :=
  decide_eq_decide.2 (add_le_add_iff_right k.delay)

@[simp] theorem latest_time (t u : Rat) :
    Clock.latest (k.time t) (k.time u) = k.time (Clock.latest t u) := by
  rw [Clock.latest, Clock.latest, before_time]
  split <;> rfl

@[simp] theorem elapsed_time (t u : Rat) :
    Clock.elapsed (k.time t) (k.time u) = Clock.elapsed t u := by
  rw [Clock.elapsed, Clock.elapsed, sub_time]

end Shift

/-! ## Processes -/

namespace Process

def shift (k : Shift) (p : Process Rat) : Process Rat :=
  { p with
    pid := k.pid
    log := k.log
    pending := k.arrivals p.pending
    exitAt := p.exitAt.map fun e => (k.time e.1, e.2) }

variable (k : Shift) (p : Process Rat) (now : Rat)

theorem insertArrival_shift (time : Rat) (a : Arrival) (pending : List (Rat × Arrival)) :
    insertArrival (k.time time) a (k.arrivals pending) =
      k.arrivals (insertArrival time a pending) := by
  induction pending with
  | nil => rfl
  | cons first rest ih =>
    obtain ⟨t, b⟩ := first
    simp only [Shift.arrivals, List.map_cons, insertArrival, Shift.before_time] at ih ⊢
    split
    · rfl
    · rw [ih, List.map_cons]

theorem start_shift (id : Json) (c : Chunk Rat) :
    (p.shift k).start (k.time now) id c = (p.start now id c).shift k := by
  unfold start shift
  simp only [Shift.add_time, insertArrival_shift]
  cases c.action.arrival id with
  | octets bs => rfl
  | endOfOutput => rfl
  | exit code =>
    cases p.exitAt with
    | none => rfl
    | some e =>
      simp only [Option.map_some, Shift.before_time]
      split <;> rfl

theorem startAll_shift (id : Json) (chunks : List (Chunk Rat)) :
    (p.shift k).startAll (k.time now) id chunks = (p.startAll now id chunks).shift k := by
  unfold startAll
  induction chunks generalizing p with
  | nil => rfl
  | cons c chunks ih => rw [List.foldl_cons, List.foldl_cons, start_shift, ih]

theorem launch_shift (script : Script Rat) (pid : Int) (argv : List String)
    (memory : MemorySource) (log : List (Int × ProcessEvent)) :
    launch script k.pid argv memory k.log (k.time now) =
      (launch script pid argv memory log now).shift k := by
  unfold launch
  rw [← startAll_shift]
  rfl

theorem exitCode?_shift : (p.shift k).exitCode? (k.time now) = p.exitCode? now := by
  unfold exitCode? shift
  cases p.exitAt with
  | none => rfl
  | some e => simp only [Option.map_some, Shift.upTo_time]

theorem poll_shift :
    (p.shift k).poll (k.time now) = ((p.poll now).1, (p.poll now).2.shift k) := by
  have hcode := exitCode?_shift k p now
  unfold poll
  cases hreturned : p.returnCode with
  | none =>
    have hsame : (p.shift k).returnCode = none := hreturned
    simp only [hsame, hcode]
    rfl
  | some code =>
    have hsame : (p.shift k).returnCode = some code := hreturned
    simp only [hsame]

theorem isAlive_shift :
    (p.shift k).isAlive (k.time now) = ((p.isAlive now).1, (p.isAlive now).2.shift k) := by
  have hsame : (p.shift k).terminated = p.terminated := rfl
  unfold isAlive
  rw [hsame]
  split
  · rfl
  · simp only [poll_shift]

theorem nextProbe_shift :
    (p.shift k).nextProbe = (p.nextProbe.1, p.nextProbe.2.shift k) := by
  have hsame : (p.shift k).memory = p.memory := rfl
  unfold nextProbe
  rw [hsame]
  split <;> rfl

theorem residentMemory_shift : (p.shift k).residentMemory (k.time now) =
    ((p.residentMemory now).1, (p.residentMemory now).2.shift k) := by
  unfold residentMemory
  simp only [isAlive_shift, nextProbe_shift]
  split <;> rfl

theorem write_shift (m : Json) :
    (p.shift k).write (k.time now) m = ((p.write now m).1, (p.write now m).2.shift k) := by
  have hclosed : (p.shift k).inputClosed = p.inputClosed := rfl
  unfold write
  rw [hclosed, exitCode?_shift]
  split
  · rfl
  split
  · rfl
  · have hstart := startAll_shift k { p with sent := p.sent ++ [m] } now (messageId m)
    exact congrArg (Prod.mk _) (hstart _)

end Process

/-! ## Receiving -/

def Session.shift (k : Shift) (s : Session Rat) : Session Rat :=
  { s with clock := k.time s.clock, process := s.process.shift k }

def Shift.after {α : Type} (k : Shift) (r : α × Session Rat) : α × Session Rat :=
  (r.1, r.2.shift k)

@[simp] theorem Shift.after_mk {α : Type} (k : Shift) (a : α) (s : Session Rat) :
    k.after (a, s) = (a, s.shift k) := rfl

namespace Session

variable (k : Shift) (s : Session Rat)

@[simp] theorem clock_shift : (s.shift k).clock = k.time s.clock := rfl

@[simp] theorem process_shift : (s.shift k).process = s.process.shift k := rfl

theorem note_shift (line : String) : (s.shift k).note line = (s.note line).shift k := by
  have hsame : (s.shift k).tracing = s.tracing := rfl
  unfold note
  rw [hsame]
  split <;> rfl

theorem notes_shift (f : Json → String) (ms : List Json) :
    ms.foldl (fun acc m => acc.note (f m)) (s.shift k) =
      (ms.foldl (fun acc m => acc.note (f m)) s).shift k := by
  induction ms generalizing s with
  | nil => rfl
  | cons m ms ih => rw [List.foldl_cons, List.foldl_cons, note_shift, ih]

theorem settle_shift : (s.shift k).settle = s.settle.shift k :=
  notes_shift k { s with pipe := s.pipe.settle.1 } (decodedLine s.label) s.pipe.settle.2

theorem takeQueued?_shift :
    (s.shift k).takeQueued? = s.takeQueued?.map fun r => (r.1, r.2.shift k) := by
  have hsame : (s.shift k).pipe = s.pipe := rfl
  unfold takeQueued?
  rw [hsame]
  cases s.pipe.take? with
  | none => rfl
  | some taken =>
    exact congrArg (fun t => some (taken.1, t)) (settle_shift k { s with pipe := taken.2 })

theorem deliver_shift (time : Rat) (a : Arrival) (rest : List (Rat × Arrival)) :
    (s.shift k).deliver (k.time time) a (k.arrivals rest) = (s.deliver time a rest).shift k := by
  unfold deliver
  rw [← settle_shift, clock_shift, Shift.latest_time]
  rfl

theorem awaitItem_shift (deadline : Rat) (arrivals : List (Rat × Arrival)) :
    (s.shift k).awaitItem (k.time deadline) (k.arrivals arrivals) =
      k.after (s.awaitItem deadline arrivals) := by
  have hlater (s : Session Rat) : { s.shift k with
      clock := Clock.latest (s.shift k).clock (k.time deadline) } =
        ({ s with clock := Clock.latest s.clock deadline } : Session Rat).shift k := by
    rw [clock_shift, Shift.latest_time]
    rfl
  induction arrivals generalizing s with
  | nil =>
    simp only [Shift.arrivals, List.map_nil, awaitItem, takeQueued?_shift]
    cases s.takeQueued? with
    | none => exact congrArg (Prod.mk none) (hlater s)
    | some taken => rfl
  | cons arrival rest ih =>
    obtain ⟨time, a⟩ := arrival
    have harrivals : k.arrivals ((time, a) :: rest) = (k.time time, a) :: k.arrivals rest := rfl
    simp only [harrivals, awaitItem, takeQueued?_shift]
    cases s.takeQueued? with
    | some taken => rfl
    | none =>
      simp only [Option.map_none, Shift.upTo_time]
      split
      · rw [deliver_shift]
        exact ih _
      · exact congrArg (Prod.mk none) (hlater s)

theorem receive_shift (timeout : Rat) :
    (s.shift k).receive timeout = k.after (s.receive timeout) := by
  have hsame : (s.shift k).sawEnd = s.sawEnd := rfl
  have hpending : (s.shift k).process.pending = k.arrivals s.process.pending := rfl
  unfold receive
  rw [hsame]
  split
  · rfl
  · rw [settle_shift, clock_shift, Shift.add_time, hpending, awaitItem_shift]
    rfl

theorem observe_shift (m : Json) : (s.shift k).observe m = (s.observe m).shift k := by
  unfold observe
  split <;> rfl

/-! ## The two waits -/

variable {k s}

theorem receive_shift_eq {timeout : Rat} {next : Session Rat} {result : Except SessionError Json}
    (h : s.receive timeout = (result, next)) :
    (s.shift k).receive timeout = (result, next.shift k) := by
  rw [receive_shift, h, Shift.after_mk]

variable (k s)

theorem readUntil_round (id : Json) (deadline : Rat) : s.readUntil id deadline =
    if Clock.upTo (Clock.sub deadline s.clock) Clock.zero then (.error .timeout, s)
    else
      match s.receive (Clock.sub deadline s.clock) with
      | (.error e, next) => (.error e, next)
      | (.ok m, next) =>
        if answers id m then (.ok m, next) else (next.observe m).readUntil id deadline := by
  rw [readUntil]
  split
  · rfl
  · split
    · next hreceive => rw [hreceive]
    · next hreceive => rw [hreceive]

theorem readUntil_shift (id : Json) (deadline : Rat) :
    (s.shift k).readUntil id (k.time deadline) = k.after (s.readUntil id deadline) := by
  fun_induction readUntil id deadline s with
  | case1 s remaining hexpired =>
    rw [readUntil_round, clock_shift, Shift.sub_time, if_pos hexpired]
    rfl
  | case2 s remaining hopen e next hreceive =>
    rw [readUntil_round, clock_shift, Shift.sub_time, if_neg hopen, receive_shift_eq hreceive]
    rfl
  | case3 s remaining hopen m next hreceive hanswers =>
    rw [readUntil_round, clock_shift, Shift.sub_time, if_neg hopen, receive_shift_eq hreceive]
    exact if_pos hanswers
  | case4 s remaining hopen m next hreceive hother ih =>
    rw [readUntil_round, clock_shift, Shift.sub_time, if_neg hopen, receive_shift_eq hreceive]
    simp only [if_neg hother, observe_shift]
    exact ih

theorem readResponse_shift (id : Json) (timeout : Rat) :
    (s.shift k).readResponse id timeout = k.after (s.readResponse id timeout) := by
  unfold readResponse
  split
  · rw [clock_shift, Shift.add_time]
    exact readUntil_shift k s id (Clock.add s.clock timeout)
  · rfl

theorem diagnosticsUntil_round (start deadline : Rat) (retries : Nat)
    (last : Option (Diagnostics Rat)) : s.diagnosticsUntil start deadline retries last =
    if Clock.upTo (Clock.sub deadline s.clock) Clock.zero then (atDeadline last, s)
    else
      match s.receive (Clock.sub deadline s.clock) with
      | (.error .timeout, next) =>
        match retries with
        | 0 => (atDeadline last, next)
        | n + 1 => next.diagnosticsUntil start deadline n last
      | (.error e, next) => (.error e, next)
      | (.ok m, next) =>
        match diagnosticsCount? m with
        | none => (next.observe m).diagnosticsUntil start deadline retries last
        | some count =>
          let info : Diagnostics Rat := ⟨count, Clock.elapsed start next.clock, m⟩
          if 0 < count then (.ok info, next)
          else next.diagnosticsUntil start deadline retries (some info) := by
  rw [diagnosticsUntil]
  split
  · rfl
  · split
    · next hreceive =>
      generalize s.receive (Clock.sub deadline s.clock) = received at hreceive
      subst hreceive
      rfl
    · next e next hother hreceive =>
      rw [hreceive]
      cases e with
      | timeout => exact absurd rfl hother
      | _ => rfl
    · next hreceive =>
      generalize s.receive (Clock.sub deadline s.clock) = received at hreceive
      subst hreceive
      rfl

theorem diagnosticsUntil_shift (start deadline : Rat) (retries : Nat)
    (last : Option (Diagnostics Rat)) :
    (s.shift k).diagnosticsUntil (k.time start) (k.time deadline) retries last =
      k.after (s.diagnosticsUntil start deadline retries last) := by
  fun_induction diagnosticsUntil start deadline retries last s with
  | case1 retries last s remaining hexpired =>
    rw [diagnosticsUntil_round, clock_shift, Shift.sub_time, if_pos hexpired]
    rfl
  | case2 last s remaining hopen next hreceive =>
    rw [diagnosticsUntil_round, clock_shift, Shift.sub_time, if_neg hopen,
      receive_shift_eq hreceive]
    rfl
  | case3 last s remaining hopen next hreceive n ih =>
    rw [diagnosticsUntil_round, clock_shift, Shift.sub_time, if_neg hopen,
      receive_shift_eq hreceive]
    exact ih
  | case4 retries last s remaining hopen e next hother hreceive =>
    rw [diagnosticsUntil_round, clock_shift, Shift.sub_time, if_neg hopen,
      receive_shift_eq hreceive]
    cases e with
    | timeout => exact absurd rfl hother
    | _ => rfl
  | case5 retries last s remaining hopen m next hreceive hnone ih =>
    rw [diagnosticsUntil_round, clock_shift, Shift.sub_time, if_neg hopen,
      receive_shift_eq hreceive]
    simp only [hnone, observe_shift]
    exact ih
  | case6 retries last s remaining hopen m next hreceive count hcount info hpos =>
    rw [diagnosticsUntil_round, clock_shift, Shift.sub_time, if_neg hopen,
      receive_shift_eq hreceive]
    simp only [hcount, if_pos hpos, clock_shift, Shift.elapsed_time]
    rfl
  | case7 retries last s remaining hopen m next hreceive count hcount info hpos ih =>
    rw [diagnosticsUntil_round, clock_shift, Shift.sub_time, if_neg hopen,
      receive_shift_eq hreceive]
    simp only [hcount, if_neg hpos, clock_shift, Shift.elapsed_time]
    exact ih

theorem waitForDiagnostics_shift (timeout : Rat) :
    (s.shift k).waitForDiagnostics timeout = k.after (s.waitForDiagnostics timeout) := by
  unfold waitForDiagnostics
  split
  · rw [clock_shift, Shift.add_time]
    exact diagnosticsUntil_shift k s s.clock (Clock.add s.clock timeout) 2 none
  · rfl

/-! ## Writing -/

theorem write_shift (method : String) (m : Json) :
    (s.shift k).write method m = k.after (s.write method m) := by
  have hlabel : (s.shift k).label = s.label := rfl
  unfold write
  simp only [hlabel, note_shift, process_shift, clock_shift, Process.write_shift]
  generalize s.note ("[" ++ s.label ++ " ->] " ++ method) = noted
  cases noted.process.write noted.clock m with
  | mk result p => cases result <;> rfl

theorem send_shift (method : String) (params : Json) :
    (s.shift k).send method params = k.after (s.send method params) := by
  obtain ⟨t, ht⟩ : ∃ t, t = s.shift k := ⟨_, rfl⟩
  have hnext : t.nextId = s.nextId := by rw [ht]; rfl
  have hnumbered : { t with nextId := s.nextId + 1 } =
      ({ s with nextId := s.nextId + 1 } : Session Rat).shift k := by rw [ht]; rfl
  rw [← ht]
  unfold send
  simp only [hnext, hnumbered, write_shift]
  cases ({ s with nextId := s.nextId + 1 } : Session Rat).write method
      (requestMessage s.nextId method params) with
  | mk result next => cases result <;> rfl

theorem notify_shift (method : String) (params : Json) :
    (s.shift k).notify method params = k.after (s.notify method params) :=
  write_shift k s method (notificationMessage method params)

theorem request_shift (method : String) (params : Json) (timeout : Rat) :
    (s.shift k).request method params timeout = k.after (s.request method params timeout) := by
  unfold request
  rw [send_shift]
  cases s.send method params with
  | mk result next =>
    cases result with
    | error e => rfl
    | ok id => exact readResponse_shift k next (.int id) timeout

theorem handshake_shift (rootUri : String) :
    (s.shift k).handshake rootUri = k.after (s.handshake rootUri) := by
  unfold handshake
  rw [request_shift]
  cases s.request "initialize" (handshakeParams rootUri) (Clock.seconds handshakeSeconds) with
  | mk result next =>
    cases result with
    | error e => rfl
    | ok response =>
      simp only [Shift.after_mk]
      split
      · rfl
      · rw [notify_shift]
        cases next.notify "initialized" (.obj []) with
        | mk result last => cases result <;> rfl

theorem openFile_shift (files : Files) (path : Path) (languageId : String) :
    (s.shift k).openFile files path languageId = k.after (s.openFile files path languageId) := by
  unfold openFile
  split
  · rfl
  · next text _ =>
    simp only [notify_shift]
    cases s.notify "textDocument/didOpen"
        (openParams (Path.resolve files.base path).uri languageId text) with
    | mk result next => cases result <;> rfl

theorem changeFile_shift (uri : String) (version : Json) (text : String) :
    (s.shift k).changeFile uri version text = k.after (s.changeFile uri version text) :=
  notify_shift k s "textDocument/didChange" (changeParams uri version text)

theorem residentMemory_shift :
    (s.shift k).residentMemory = k.after s.residentMemory := by
  unfold residentMemory
  rw [process_shift, clock_shift, Process.residentMemory_shift]
  rfl

/-! ## Preparation -/

theorem failureNow_shift (place : String) (e : SessionError) :
    (s.shift k).failureNow place e = k.after (s.failureNow place e) := by
  unfold failureNow
  rw [residentMemory_shift]
  rfl

theorem openTarget_shift (files : Files) (b : BenchSettings Rat) :
    (s.shift k).openTarget files b = k.after (s.openTarget files b) := by
  unfold openTarget
  rw [handshake_shift]
  cases s.handshake b.rootUri with
  | mk result next =>
    cases result with
    | error e => rfl
    | ok response => exact openFile_shift k next files b.target b.languageId

theorem prepare_shift (files : Files) (b : BenchSettings Rat) :
    (s.shift k).prepare files b =
      ((s.prepare files b).1, k.after (s.prepare files b).2) := by
  unfold prepare
  rw [openTarget_shift]
  cases s.openTarget files b with
  | mk result next =>
    cases result with
    | error e =>
      simp only [Shift.after_mk, failureNow_shift]
      rfl
    | ok uri =>
      simp only [Shift.after_mk, waitForDiagnostics_shift]
      cases next.waitForDiagnostics b.indexTimeout with
      | mk result last =>
        cases result with
        | error e =>
          simp only [Shift.after_mk, failureNow_shift]
          rfl
        | ok diagnostics =>
          simp only [Shift.after_mk, residentMemory_shift]
          rfl

/-- Work that does not depend on the moment is so behind the preparation too. -/
theorem prepareAndWork_shift (files : Files) (b : BenchSettings Rat)
    {work : Ready Rat → Session Rat → Report Rat × Session Rat}
    (hwork : ∀ ready (s : Session Rat), work ready (s.shift k) = k.after (work ready s)) :
    (s.shift k).prepareAndWork files b work = k.after (s.prepareAndWork files b work) := by
  unfold prepareAndWork
  rw [prepare_shift]
  obtain ⟨lines, result, next⟩ := s.prepare files b
  cases result with
  | error outcome => rfl
  | ok ready =>
    simp only [Shift.after_mk, hwork]
    rfl

end Session

end Latency
