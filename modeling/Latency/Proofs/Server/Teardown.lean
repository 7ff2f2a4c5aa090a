import Mathlib.Tactic.Common
import Latency.Server.Process
/-!
# The life of a process

A process is `Live` from its start until it is terminated: nothing that a session does with it in
between adds a call to its record.  `terminate` then makes it `Ended`: it was waited for once and its
input was closed once, and before that it was killed unless it was found gone.
-/

namespace Latency.Process

variable {τ : Type}

/-- A process that was started as number `pid` when the log was `log`, and is not terminated. -/
structure Live (pid : Int) (log : List (Int × ProcessEvent)) (p : Process τ) : Prop where
  pid_eq : p.pid = pid
  log_eq : p.log = log
  events_eq : p.events = [.spawn]
  not_killed : p.killed = false
  not_terminated : p.terminated = false
  input_open : p.inputClosed = false
  exited : p.returnCode.isSome → p.exitAt.isSome

/-- The kill signals that a process got: to its group, and to itself alone where that failed. -/
def kills (p : Process τ) : List ProcessEvent :=
  if p.killed then
    if p.script.faults.killGroup then [.killGroup, .kill] else [.killGroup]
  else []

def teardown (p : Process τ) : List ProcessEvent :=
  p.kills ++ [.wait, .closeInput]

/-- A process that was started and terminated.  One that was not killed had exited, and its exit had
been found. -/
structure Ended (p : Process τ) : Prop where
  terminated : p.terminated = true
  input_closed : p.inputClosed = true
  events_eq : p.events = .spawn :: p.teardown
  exited : p.killed = false → p.returnCode.isSome ∧ p.exitAt.isSome

/-! ## A property that no step of a session ends -/

variable [Clock τ]

/-- What holds of a process as long as a session uses it without closing it. -/
structure Stable (I : Process τ → Prop) : Prop where
  pending : ∀ p arrivals, I p → I { p with pending := arrivals }
  poll : ∀ p now, I p → I (p.poll now).2
  nextProbe : ∀ p, I p → I p.nextProbe.2
  write : ∀ p now m, I p → I (p.write now m).2

theorem Stable.residentMemory {I : Process τ → Prop} (hI : Stable I) {p : Process τ} (now : τ)
    (h : I p) : I (p.residentMemory now).2 := by
  have halive : I (p.isAlive now).2 := by
    unfold isAlive
    split
    · exact h
    · exact hI.poll p now h
  unfold Process.residentMemory
  split
  next alive q hq =>
  rw [hq] at halive
  split
  · exact hI.nextProbe q halive
  · exact halive

/-! ## Live processes -/

section Live

variable {pid : Int} {log : List (Int × ProcessEvent)} {p : Process τ}

theorem isSome_exitAt_of_exitCode? {now : τ} (hkilled : p.killed = false)
    (h : (p.exitCode? now).isSome) : p.exitAt.isSome := by
  unfold exitCode? at h
  rw [if_neg (by simp [hkilled])] at h
  split at h
  · next hexit => rw [hexit]; rfl
  · cases h

theorem Live.start (h : Live pid log p) (now : τ) (id : Json) (c : Chunk τ) :
    Live pid log (p.start now id c) where
  __ := h
  exited := by
    intro hcode
    obtain ⟨⟨time, code⟩, hexit⟩ := Option.isSome_iff_exists.1 (h.exited hcode)
    unfold Process.start
    simp only [hexit]
    cases c.action.arrival id with
    | octets | endOfOutput => rfl
    | exit code' =>
      simp only
      split <;> rfl

theorem Live.startAll (h : Live pid log p) (now : τ) (id : Json) (chunks : List (Chunk τ)) :
    Live pid log (p.startAll now id chunks) := by
  unfold Process.startAll
  induction chunks generalizing p with
  | nil => exact h
  | cons c chunks ih => exact ih (h.start now id c)

theorem live_launch (script : Script τ) (pid : Int) (argv : List String) (memory : MemorySource)
    (log : List (Int × ProcessEvent)) (now : τ) :
    Live pid log (launch script pid argv memory log now) := by
  apply Live.startAll
  exact ⟨rfl, rfl, rfl, rfl, rfl, rfl, by simp⟩

theorem Live.poll (h : Live pid log p) (now : τ) : Live pid log (p.poll now).2 := by
  unfold Process.poll
  split
  · exact h
  · exact { h with exited := isSome_exitAt_of_exitCode? h.not_killed }

theorem live_stable (pid : Int) (log : List (Int × ProcessEvent)) :
    Stable (τ := τ) (Live pid log) where
  pending := fun p arrivals h => { h with }
  poll := fun p now h => h.poll now
  nextProbe := by
    intro p h
    unfold Process.nextProbe
    split
    · exact h
    · exact h
    · exact { h with }
  write := by
    intro p now m h
    unfold Process.write
    split
    · exact h
    · split
      · exact h
      · apply Live.startAll
        exact { h with }

/-! ## Termination -/

theorem Live.poll_eq (h : Live pid log p) (now : τ) :
    ∃ code, { p with terminated := true }.poll now =
        (code, { p with terminated := true, returnCode := code }) ∧
      (code.isSome → p.exitAt.isSome) := by
  unfold Process.poll
  split
  · next code hcode =>
    have hcode' : p.returnCode = some code := hcode
    refine ⟨some code, ?_, fun _ => h.exited (by rw [hcode']; rfl)⟩
    rw [← hcode']
  · exact ⟨_, rfl, isSome_exitAt_of_exitCode? h.not_killed⟩

omit [Clock τ] in
theorem kill_eq (p : Process τ) :
    p.kill = { p with
      killed := true
      events := p.events ++ { p with killed := true }.kills
      log := p.log ++ { p with killed := true }.kills.map (p.pid, ·) } := by
  unfold kill kills record
  cases hfault : p.script.faults.killGroup with
  | true => simp [hfault]
  | false => simp [hfault]

theorem wait_eq (p : Process τ) (now : τ) :
    ∃ code, p.wait now = { p.record .wait with returnCode := code } ∧
      (p.returnCode.isSome → code.isSome) := by
  unfold wait
  simp only
  split
  · exact ⟨p.returnCode, rfl, id⟩
  · unfold Process.poll
    split
    · exact ⟨p.returnCode, rfl, id⟩
    · next hnone =>
      have hnone' : p.returnCode = none := hnone
      exact ⟨_, rfl, fun hsome => by simp [hnone'] at hsome⟩

/-- A process whose termination is under way: it has been killed unless it was found gone. -/
structure Doomed (pid : Int) (log : List (Int × ProcessEvent)) (p : Process τ) : Prop where
  pid_eq : p.pid = pid
  log_eq : p.log = log ++ p.kills.map (pid, ·)
  events_eq : p.events = .spawn :: p.kills
  terminated : p.terminated = true
  input_open : p.inputClosed = false
  exited : p.killed = false → p.returnCode.isSome ∧ p.exitAt.isSome

theorem Live.doomed (h : Live pid log p) (now : τ) :
    ∃ q, Doomed pid log q ∧ p.terminate now = (q.wait now).closeInput := by
  obtain ⟨code, hpoll, hexit⟩ := h.poll_eq now
  unfold terminate
  rw [if_neg (by simp [h.not_terminated]), hpoll]
  cases code with
  | none =>
    refine ⟨_, ?_, rfl⟩
    rw [if_pos Option.isNone_none, kill_eq]
    constructor
    · exact h.pid_eq
    · rw [← h.log_eq, ← h.pid_eq]
      rfl
    · simp only [h.events_eq, List.singleton_append]
      rfl
    · rfl
    · exact h.input_open
    · intro hkilled
      cases hkilled
  | some code =>
    have hnone : { p with terminated := true, returnCode := some code }.kills = [] :=
      if_neg (by simp [h.not_killed])
    refine ⟨_, ?_, rfl⟩
    rw [if_neg (by simp)]
    constructor
    · exact h.pid_eq
    · rw [hnone, List.map_nil, List.append_nil]
      exact h.log_eq
    · rw [hnone]
      exact h.events_eq
    · rfl
    · exact h.input_open
    · intro _
      exact ⟨rfl, hexit rfl⟩

/-- **A live process is ended by its termination.**  The calls that terminate it are all that is
added to the log. -/
theorem Live.terminate (h : Live pid log p) (now : τ) :
    (p.terminate now).Ended ∧ (p.terminate now).pid = pid ∧
      (p.terminate now).log = log ++ (p.terminate now).teardown.map (pid, ·) := by
  obtain ⟨q, hq, hterminate⟩ := h.doomed now
  obtain ⟨code, hwait, hcode⟩ := q.wait_eq now
  have hopen : ¬ ({ q.record .wait with returnCode := code } : Process τ).inputClosed = true := by
    simp [record, hq.input_open]
  rw [hterminate, hwait, closeInput, if_neg hopen]
  refine ⟨?_, hq.pid_eq, ?_⟩
  · constructor
    · exact hq.terminated
    · rfl
    · simp [record, hq.events_eq, teardown, kills]
    · intro hkilled
      obtain ⟨hreturned, hexit⟩ := hq.exited hkilled
      exact ⟨hcode hreturned, hexit⟩
  · simp [record, hq.log_eq, hq.pid_eq, teardown, kills]

theorem terminate_of_terminated (h : p.terminated = true) (now : τ) : p.terminate now = p := by
  rw [Process.terminate, if_pos h]

theorem terminated_poll (p : Process τ) (now : τ) : (p.poll now).2.terminated = p.terminated := by
  unfold Process.poll
  split <;> rfl

omit [Clock τ] in
theorem terminated_closeInput {p : Process τ} (h : p.terminated = true) :
    p.closeInput.terminated = true := by
  unfold closeInput
  split <;> exact h

theorem terminated_terminate (p : Process τ) (now : τ) : (p.terminate now).terminated = true := by
  by_cases hterminated : p.terminated = true
  · rw [terminate_of_terminated hterminated]
    exact hterminated
  · have hkept := terminated_poll { p with terminated := true } now
    rw [terminate, if_neg hterminated]
    generalize { p with terminated := true }.poll now = polled at hkept ⊢
    obtain ⟨code, q⟩ := polled
    have hq : q.terminated = true := hkept
    apply terminated_closeInput
    cases code with
    | none =>
      obtain ⟨_, hwait, -⟩ := q.kill.wait_eq now
      rw [if_pos Option.isNone_none, hwait, kill_eq]
      exact hq
    | some code =>
      obtain ⟨_, hwait, -⟩ := q.wait_eq now
      rw [if_neg (by simp), hwait]
      exact hq

end Live

end Latency.Process
