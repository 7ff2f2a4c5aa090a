import Latency.Proofs.Bench.Answers
import Latency.Proofs.Files.Null
/-!
# What the benchmarks with a fresh server come to

Start-up and diagnostics are timed on a server of their own in every iteration.  `Task.Passes` is
such an iteration that got through, and `Task.Fails` one that did not; there is no third kind.  The
benchmark ends well when all iterations got through, and else with the failure of the first one that
did not, behind which no server is started.
-/

namespace Latency

/-! ## One iteration -/

structure Round (τ : Type) where
  ms : τ
  diagnostics : Option (Diagnostics τ) := none
  memory : Option Int := none

def Round.sample {τ : Type} (limit : Nat) (r : Round τ) : Sample τ where
  ms := r.ms
  response :=
    match r.diagnostics with
    | none => .str "ok"
    | some info => responseSummary limit info.message

def SessionError.outcome {τ : Type} (e : SessionError) (logs : List String) (memory : Option Int) :
    Ended τ :=
  match e.crash? with
  | some crash => .error crash
  | none => .ok (.failed e.message logs memory)

variable {τ : Type} [Clock τ]

def Host.attach (started : Host τ) (server : Server) (b : BenchSettings τ) (p : Process τ) :
    Session τ :=
  Session.attach server.label b.tracing 1024 started.clock p

namespace Task

/-- An iteration that got through: its server was started and shook hands, and for diagnostics the
document was opened and its diagnostics came.  Times are from the start of the server, and for
diagnostics from the handshake on. -/
inductive Passes (server : Server) (b : BenchSettings τ) (h : Host τ) :
    Task → Round τ → Host τ → Prop where
  | startup {started : Host τ} {p : Process τ} {response : Json} {s : Session τ} :
      h.start server b.directory = (.ok p, started) →
      (started.attach server b p).handshake b.rootUri = (.ok response, s) →
      Passes server b h .startup { ms := Clock.elapsed h.clock s.clock }
        (started.conclude b.directory s.close)
  | diagnostics {started : Host τ} {p : Process τ} {response : Json} {uri : String}
      {info : Diagnostics τ} {ready opened s : Session τ} :
      h.start server b.directory = (.ok p, started) →
      (started.attach server b p).handshake b.rootUri = (.ok response, ready) →
      ready.openFile h.files b.target b.languageId = (.ok uri, opened) →
      opened.waitForDiagnostics b.indexTimeout = (.ok info, s) →
      Passes server b h .diagnostics
        ⟨Clock.elapsed ready.clock s.clock, some info, s.residentMemory.1⟩
        (started.conclude b.directory s.residentMemory.2.close)

/-- An iteration that failed with an error, the log that its session had taken, and a memory sample,
which only the wait for diagnostics takes. -/
inductive Fails (server : Server) (b : BenchSettings τ) (h : Host τ) :
    Task → SessionError → List String → Option Int → Host τ → Prop where
  | unstarted {task : Task} {failure : SpawnFailure} {started : Host τ} :
      h.start server b.directory = (.error failure, started) →
      Fails server b h task (.spawn server.cmd failure) [] none started
  | refused {task : Task} {started : Host τ} {p : Process τ} {e : SessionError} {s : Session τ} :
      h.start server b.directory = (.ok p, started) →
      (started.attach server b p).handshake b.rootUri = (.error e, s) →
      Fails server b h task e s.logs none (started.conclude b.directory s.close)
  | unopened {started : Host τ} {p : Process τ} {response : Json} {e : SessionError}
      {ready s : Session τ} :
      h.start server b.directory = (.ok p, started) →
      (started.attach server b p).handshake b.rootUri = (.ok response, ready) →
      ready.openFile h.files b.target b.languageId = (.error e, s) →
      Fails server b h .diagnostics e s.logs none (started.conclude b.directory s.close)
  | undiagnosed {started : Host τ} {p : Process τ} {response : Json} {uri : String}
      {e : SessionError} {ready opened s : Session τ} :
      h.start server b.directory = (.ok p, started) →
      (started.attach server b p).handshake b.rootUri = (.ok response, ready) →
      ready.openFile h.files b.target b.languageId = (.ok uri, opened) →
      opened.waitForDiagnostics b.indexTimeout = (.error e, s) →
      Fails server b h .diagnostics e s.logs s.residentMemory.1
        (started.conclude b.directory s.residentMemory.2.close)

inductive Rounds (task : Task) (server : Server) (b : BenchSettings τ) :
    Host τ → List (Round τ) → Host τ → Prop where
  | nil (h : Host τ) : Rounds task server b h [] h
  | cons {h next last : Host τ} {r : Round τ} {rounds : List (Round τ)} :
      Passes server b h task r next → Rounds task server b next rounds last →
        Rounds task server b h (r :: rounds) last

/-- An iteration, whichever of the two benchmarks it is of. -/
def once (task : Task) (server : Server) (b : BenchSettings τ) (h : Host τ) :
    Except (Ended τ) (Round τ) × Host τ :=
  match task with
  | .startup =>
    let (result, next) := startOnce server b h
    (result.map fun finish => { ms := Clock.elapsed h.clock finish }, next)
  | _ =>
    let (result, next) := indexOnce server b h
    (result.map fun r => ⟨r.ms, some r.diagnostics, r.memory⟩, next)

variable {task : Task} {server : Server} {b : BenchSettings τ} {h next last : Host τ}
  {r : Round τ} {rounds : List (Round τ)} {e : SessionError} {logs : List String}
  {memory : Option Int}

theorem once_of_passes (hpasses : Passes server b h task r next) :
    task.once server b h = (.ok r, next) := by
  cases hpasses with
  | startup hstart hshake =>
    unfold Host.attach at hshake
    simp only [once, startOnce, Host.withSession, hstart, shakeHands, hshake, Except.map]
  | diagnostics hstart hshake hopen hwait =>
    unfold Host.attach at hshake
    simp only [once, indexOnce, Host.withSession, hstart, indexDocument, hshake, hopen, hwait,
      Except.map]

omit [Clock τ] in
theorem failure_eq_outcome (s : Session τ) (e : SessionError) (memory : Option Int) :
    s.failure "" e memory = e.outcome s.logs memory := by
  unfold Session.failure SessionError.outcome
  cases e.crash? with
  | none => simp only [String.empty_append]
  | some crash => rfl

theorem once_of_fails (htask : task = .startup ∨ task = .diagnostics)
    (hfails : Fails server b h task e logs memory next) :
    task.once server b h = (.error (e.outcome logs memory), next) := by
  cases hfails with
  | unstarted hstart =>
    obtain rfl | rfl := htask
    · simp only [once, startOnce, Host.withSession, hstart, Except.map]
      rfl
    · simp only [once, indexOnce, Host.withSession, hstart, Except.map]
      rfl
  | refused hstart hshake =>
    unfold Host.attach at hshake
    obtain rfl | rfl := htask
    · simp only [once, startOnce, Host.withSession, hstart, shakeHands, hshake, Except.map,
        failure_eq_outcome]
    · simp only [once, indexOnce, Host.withSession, hstart, indexDocument, hshake, Except.map,
        failure_eq_outcome]
  | unopened hstart hshake hopen =>
    unfold Host.attach at hshake
    simp only [once, indexOnce, Host.withSession, hstart, indexDocument, hshake, hopen, Except.map,
      failure_eq_outcome]
  | undiagnosed hstart hshake hopen hwait =>
    unfold Host.attach at hshake
    simp only [once, indexOnce, Host.withSession, hstart, indexDocument, hshake, hopen, hwait,
      Session.failureNow, Except.map, failure_eq_outcome]
    rfl

/-- There is no third kind of iteration. -/
theorem passes_or_fails (htask : task = .startup ∨ task = .diagnostics) (server : Server)
    (b : BenchSettings τ) (h : Host τ) :
    (∃ r next, Passes server b h task r next) ∨
      ∃ e logs memory next, Fails server b h task e logs memory next := by
  cases hstart : h.start server b.directory with
  | mk result started =>
  cases result with
  | error failure => exact .inr ⟨_, _, _, _, .unstarted hstart⟩
  | ok p =>
  cases hshake : (started.attach server b p).handshake b.rootUri with
  | mk result ready =>
  cases result with
  | error e => exact .inr ⟨_, _, _, _, .refused hstart hshake⟩
  | ok response =>
  obtain rfl | rfl := htask
  · exact .inl ⟨_, _, .startup hstart hshake⟩
  cases hopen : ready.openFile h.files b.target b.languageId with
  | mk result opened =>
  cases result with
  | error e => exact .inr ⟨_, _, _, _, .unopened hstart hshake hopen⟩
  | ok uri =>
  cases hwait : opened.waitForDiagnostics b.indexTimeout with
  | mk result s =>
  cases result with
  | error e => exact .inr ⟨_, _, _, _, .undiagnosed hstart hshake hopen hwait⟩
  | ok info => exact .inl ⟨_, _, .diagnostics hstart hshake hopen hwait⟩

/-! ## Iterations in a row -/

theorem Rounds.snoc (hrounds : Rounds task server b h rounds last)
    (hpasses : Passes server b last task r next) :
    Rounds task server b h (rounds ++ [r]) next := by
  induction hrounds with
  | nil h => exact .cons hpasses (.nil next)
  | cons hfirst _ ih => exact .cons hfirst (ih hpasses)

/-- Iterations go on until there are enough of them or one fails. -/
theorem exists_rounds (htask : task = .startup ∨ task = .diagnostics) (server : Server)
    (b : BenchSettings τ) (n : Nat) (h : Host τ) :
    ∃ rounds last, Rounds task server b h rounds last ∧
      (rounds.length = n ∨ rounds.length < n ∧
        ∃ e logs memory next, Fails server b last task e logs memory next) := by
  induction n with
  | zero => exact ⟨[], h, .nil h, .inl rfl⟩
  | succ n ih =>
    obtain ⟨rounds, last, hrounds, hlength | ⟨hlt, hfails⟩⟩ := ih
    · obtain ⟨r, next, hpasses⟩ | hfails := passes_or_fails htask server b last
      · exact ⟨rounds ++ [r], next, hrounds.snoc hpasses, .inl (by simp [hlength])⟩
      · exact ⟨rounds, last, hrounds, .inr ⟨by omega, hfails⟩⟩
    · exact ⟨rounds, last, hrounds, .inr ⟨by omega, hfails⟩⟩

/-- The iterations from number `i` on, whichever of the two benchmarks they are of. -/
def iterate (task : Task) (server : Server) (b : BenchSettings τ) (samples : List (Sample τ))
    (latest : Option (Diagnostics τ)) (memory : Option Int) (i : Nat) :
    Nat → Host τ → Ended τ × Host τ
  | 0, h => (.ok (.ok samples latest memory), h)
  | n + 1, h =>
    match task.once server b h with
    | (.error outcome, next) => (outcome, next)
    | (.ok r, next) =>
      if i < b.warmup then
        task.iterate server b samples latest (peak memory r.memory) (i + 1) n next
      else
        task.iterate server b (samples ++ [r.sample b.responseLimit]) r.diagnostics
          (peak memory r.memory) (i + 1) n next

theorem startRounds_eq_iterate (samples : List (Sample τ)) (i n : Nat) (h : Host τ) :
    ((startRounds server b samples i n h).1.outcome, (startRounds server b samples i n h).2) =
      Task.startup.iterate server b samples none none i n h := by
  induction n generalizing samples i h with
  | zero => rfl
  | succ n ih =>
    simp only [startRounds, iterate, once]
    cases startOnce server b h with
    | mk result next =>
    cases result with
    | error outcome => rfl
    | ok finish =>
      simp only [Except.map]
      by_cases hwarm : i < b.warmup
      · simp only [if_pos hwarm, List.append_nil]
        exact ih samples (i + 1) next
      · simp only [if_neg hwarm]
        exact ih _ (i + 1) next

theorem indexRounds_eq_iterate (samples : List (Sample τ)) (latest : Option (Diagnostics τ))
    (memory : Option Int) (i n : Nat) (h : Host τ) :
    ((indexRounds server b samples latest memory i n h).1.outcome,
        (indexRounds server b samples latest memory i n h).2) =
      Task.diagnostics.iterate server b samples latest memory i n h := by
  induction n generalizing samples latest memory i h with
  | zero => rfl
  | succ n ih =>
    simp only [indexRounds, iterate, once]
    cases indexOnce server b h with
    | mk result next =>
    cases result with
    | error outcome => rfl
    | ok indexed =>
      simp only [Except.map]
      by_cases hwarm : i < b.warmup
      · simp only [if_pos hwarm]
        exact ih samples latest _ (i + 1) next
      · simp only [if_neg hwarm]
        exact ih _ _ _ (i + 1) next

theorem run_eq_iterate (htask : task = .startup ∨ task = .diagnostics) (server : Server)
    (b : BenchSettings τ) (params : String → String → Json) (h : Host τ) :
    ((task.run b params server h).1.outcome, (task.run b params server h).2) =
      task.iterate server b [] none none 0 b.total h := by
  obtain rfl | rfl := htask
  · exact startRounds_eq_iterate [] 0 b.total h
  · exact indexRounds_eq_iterate [] none none 0 b.total h

/-- Iterations that got through leave the others to be done.  Of those in the warm-up only the
memory is kept. -/
theorem Rounds.iterate_eq (hrounds : Rounds task server b h rounds last)
    (samples : List (Sample τ)) (latest : Option (Diagnostics τ)) (memory : Option Int)
    (i n : Nat) :
    task.iterate server b samples latest memory i (rounds.length + n) h =
      task.iterate server b
        (samples ++ (rounds.drop (b.warmup.toNat - i)).map (·.sample b.responseLimit))
        ((rounds.drop (b.warmup.toNat - i)).foldl (fun _ r => r.diagnostics) latest)
        (rounds.foldl (fun high r => peak high r.memory) memory) (i + rounds.length) n last := by
  induction hrounds generalizing samples latest memory i with
  | nil h => simp
  | @cons h next last r rounds hfirst _ ih =>
    have hcount : (r :: rounds).length + n = rounds.length + n + 1 := by
      rw [List.length_cons]
      omega
    have hnumber : i + (r :: rounds).length = i + 1 + rounds.length := by
      rw [List.length_cons]
      omega
    rw [hcount, hnumber, iterate, once_of_passes hfirst, List.foldl_cons]
    -- The warm-up is what is dropped: as long as it goes on, one more iteration is.
    by_cases hwarm : i < b.warmup
    · have hdrop : b.warmup.toNat - i = (b.warmup.toNat - (i + 1)) + 1 := by omega
      simp only [if_pos hwarm]
      rw [ih, hdrop, List.drop_succ_cons]
    · have hdrop : b.warmup.toNat - i = 0 := by omega
      have hdrop' : b.warmup.toNat - (i + 1) = 0 := by omega
      simp only [if_neg hwarm]
      rw [ih, hdrop, hdrop', List.drop_zero, List.drop_zero, List.map_cons, List.foldl_cons,
        List.append_assoc, List.singleton_append]

/-! ## What is kept of the iterations -/

section Kept

variable {τ : Type}

end Kept

/-- The first iteration that does not get through ends the benchmark. -/
theorem Rounds.iterate_fails (htask : task = .startup ∨ task = .diagnostics)
    (hrounds : Rounds task server b h rounds last) (hlt : rounds.length < b.total)
    (hfails : Fails server b last task e logs memory next) :
    task.iterate server b [] none none 0 b.total h = (e.outcome logs memory, next) := by
  obtain ⟨n, hn⟩ := Nat.exists_eq_add_of_lt hlt
  rw [hn, Nat.add_assoc, hrounds.iterate_eq, iterate, once_of_fails htask hfails]

/-! ## Processes -/

end Task

/-! ## Errors that break off -/

section Errors

variable {s t : Session τ} {e : SessionError}

end Errors

/-! ## The benchmarks -/

section Diagnosed

end Diagnosed

end Latency
