import Mathlib.Data.List.Nodup
import Mathlib.Logic.Function.Iterate
import Latency.Proofs.Bench.Rounds
import Latency.Proofs.Session.Stable
/-!
# No benchmark leaves a server behind

A benchmark works with sessions one after another.  Whatever becomes of one, the server behind it is
ended before the benchmark goes on, so that the log of the machine grows by the whole lives of
processes, one behind the other (`Host.Contained`), and at no time more than one of them runs.
-/

namespace Latency

variable {τ : Type}

def Launched.calls (l : Launched τ) : List (Int × ProcessEvent) :=
  l.process.events.map (l.process.pid, ·)

/-- Between two moments at which no server runs, these processes were started and ended. -/
structure Host.Contained (h h' : Host τ) (closed : List (Launched τ)) : Prop where
  launched : h'.launched = h.launched ++ closed
  log : h'.log = h.log ++ closed.flatMap Launched.calls
  ended : ∀ l ∈ closed, l.process.Ended
  pid_le : h.nextPid ≤ h'.nextPid
  pids : ∀ l ∈ closed, h.nextPid ≤ l.process.pid ∧ l.process.pid < h'.nextPid
  nodup : (closed.map (·.process.pid)).Nodup

/-! ## Running processes -/

def markRunning (running : List Int) : Int × ProcessEvent → List Int
  | (pid, .spawn) => pid :: running
  | (pid, .wait) => running.erase pid
  | _ => running

def runningAfter (log : List (Int × ProcessEvent)) : List Int :=
  log.foldl markRunning []

theorem length_markRunning_le {calls : List (Int × ProcessEvent)} (running : List Int)
    (h : ∀ call ∈ calls, call.2 ≠ .spawn) :
    (calls.foldl markRunning running).length ≤ running.length := by
  induction calls generalizing running with
  | nil => exact Nat.le_refl _
  | cons call calls ih =>
    obtain ⟨hfirst, hothers⟩ := List.forall_mem_cons.1 h
    have hstep : (markRunning running call).length ≤ running.length := by
      obtain ⟨pid, event⟩ := call
      cases event with
      | spawn => exact absurd rfl hfirst
      | wait => exact List.length_erase_le
      | killGroup | kill | closeInput => exact Nat.le_refl _
    rw [List.foldl_cons]
    exact Nat.le_trans (ih _ hothers) hstep

theorem spawn_not_mem_teardown (p : Process τ) : .spawn ∉ p.teardown := by
  unfold Process.teardown Process.kills
  split
  · split <;> simp
  · simp

theorem calls_of_ended {l : Launched τ} (h : l.process.Ended) :
    l.calls = (l.process.pid, .spawn) :: l.process.teardown.map (l.process.pid, ·) := by
  rw [Launched.calls, h.events_eq, List.map_cons]

theorem runningAfter_calls {l : Launched τ} (h : l.process.Ended) : runningAfter l.calls = [] := by
  rw [calls_of_ended h]
  unfold Process.teardown Process.kills
  split
  · split <;> simp [runningAfter, markRunning]
  · simp [runningAfter, markRunning]

theorem runningAfter_front {l : Launched τ} (h : l.process.Ended)
    {front back : List (Int × ProcessEvent)} (hsplit : l.calls = front ++ back) :
    (runningAfter front).length ≤ 1 := by
  rw [calls_of_ended h] at hsplit
  cases front with
  | nil => simp [runningAfter]
  | cons call front =>
    obtain ⟨rfl, hrest⟩ := List.cons.inj hsplit
    have hno : ∀ call ∈ front, call.2 ≠ .spawn := by
      intro call hcall hspawn
      have hmem : call ∈ l.process.teardown.map (l.process.pid, ·) :=
        hrest ▸ List.mem_append_left back hcall
      obtain ⟨event, hevent, rfl⟩ := List.mem_map.1 hmem
      subst hspawn
      exact spawn_not_mem_teardown l.process hevent
    exact length_markRunning_le [l.process.pid] hno

theorem runningAfter_flatMap {closed : List (Launched τ)} (h : ∀ l ∈ closed, l.process.Ended)
    {front back : List (Int × ProcessEvent)}
    (hsplit : closed.flatMap Launched.calls = front ++ back) : (runningAfter front).length ≤ 1 := by
  induction closed generalizing front with
  | nil =>
    obtain ⟨rfl, -⟩ := List.append_eq_nil_iff.1 hsplit.symm
    simp [runningAfter]
  | cons l closed ih =>
    obtain ⟨hfirst, hothers⟩ := List.forall_mem_cons.1 h
    rw [List.flatMap_cons, List.append_eq_append_iff] at hsplit
    rcases hsplit with ⟨more, rfl, hmore⟩ | ⟨left, hleft, -⟩
    · have hnone := runningAfter_calls hfirst
      rw [runningAfter, List.foldl_append, ← runningAfter, hnone]
      exact ih hothers hmore
    · exact runningAfter_front hfirst hleft

namespace Host

theorem Contained.of_nothing {h h' : Host τ} (hlaunched : h'.launched = h.launched)
    (hlog : h'.log = h.log) (hpid : h'.nextPid = h.nextPid) : Contained h h' [] where
  launched := by rw [hlaunched, List.append_nil]
  log := by rw [hlog, List.flatMap_nil, List.append_nil]
  ended := by simp
  pid_le := by omega
  pids := by simp
  nodup := List.nodup_nil

theorem Contained.trans {h h' h'' : Host τ} {closed closed' : List (Launched τ)}
    (hfirst : Contained h h' closed) (hsecond : Contained h' h'' closed') :
    Contained h h'' (closed ++ closed') where
  launched := by rw [hsecond.launched, hfirst.launched, List.append_assoc]
  log := by rw [hsecond.log, hfirst.log, List.flatMap_append, List.append_assoc]
  ended := by
    intro l hl
    rcases List.mem_append.1 hl with hl | hl
    · exact hfirst.ended l hl
    · exact hsecond.ended l hl
  pid_le := Int.le_trans hfirst.pid_le hsecond.pid_le
  pids := by
    intro l hl
    have hle := hfirst.pid_le
    have hle' := hsecond.pid_le
    rcases List.mem_append.1 hl with hl | hl
    · obtain ⟨hlow, hhigh⟩ := hfirst.pids l hl
      omega
    · obtain ⟨hlow, hhigh⟩ := hsecond.pids l hl
      omega
  nodup := by
    rw [List.map_append]
    apply List.Nodup.append hfirst.nodup hsecond.nodup
    intro pid hpid hpid'
    obtain ⟨l, hl, rfl⟩ := List.mem_map.1 hpid
    obtain ⟨l', hl', hsame⟩ := List.mem_map.1 hpid'
    have hbound := (hfirst.pids l hl).2
    have hbound' := (hsecond.pids l' hl').1
    omega

theorem composes_contained :
    Composes fun h h' : Host τ => ∃ closed, h.Contained h' closed where
  refl h := ⟨[], .of_nothing rfl rfl rfl⟩
  trans := by
    rintro h h' h'' ⟨closed, hfirst⟩ ⟨closed', hsecond⟩
    exact ⟨closed ++ closed', hfirst.trans hsecond⟩

/-! ## One session -/

section Session

variable [Clock τ]

theorem start_cases (server : Server) (directory : Path) (h : Host τ) :
    (∃ failure starts, h.start server directory = (.error failure, { h with starts := starts })) ∨
      ∃ script program memory clock starts,
        let log := h.log ++ [(h.nextPid, .spawn)]
        h.start server directory =
          (.ok (Process.launch script h.nextPid (program :: server.args) memory log clock),
            { h with
              clock := clock, starts := starts, nextPid := h.nextPid + 1, log := log }) := by
  unfold start
  split
  · exact .inl ⟨_, h.starts, rfl⟩
  · split
    · exact .inl ⟨_, h.starts, rfl⟩
    · unfold launch
      split
      · exact .inl ⟨_, h.starts, rfl⟩
      · simp only
        split
        · exact .inl ⟨_, _, rfl⟩
        · exact .inr ⟨_, _, _, _, _, rfl⟩

theorem start_error {server : Server} {directory : Path} {h next : Host τ}
    {failure : SpawnFailure} (hstart : h.start server directory = (.error failure, next)) :
    Contained h next [] := by
  rcases start_cases server directory h with ⟨failure', starts, hcase⟩ | ⟨_, _, _, _, _, hcase⟩
  · obtain ⟨-, rfl⟩ := Prod.mk.inj (hcase.symm.trans hstart)
    exact .of_nothing rfl rfl rfl
  · cases (Prod.mk.inj (hcase.symm.trans hstart)).1

theorem start_ok {server : Server} {directory : Path} {h next : Host τ} {p : Process τ}
    (hstart : h.start server directory = (.ok p, next)) :
    p.Live h.nextPid (h.log ++ [(h.nextPid, .spawn)]) ∧ next.launched = h.launched ∧
      next.nextPid = h.nextPid + 1 := by
  rcases start_cases server directory h with ⟨failure, starts, hcase⟩ | ⟨_, _, _, _, _, hcase⟩
  · cases (Prod.mk.inj (hcase.symm.trans hstart)).1
  · obtain ⟨hp, rfl⟩ := Prod.mk.inj (hcase.symm.trans hstart)
    rw [← Except.ok.inj hp]
    exact ⟨Process.live_launch .., rfl, rfl⟩

theorem conclude_contained {h next : Host τ} {s : Session τ} (directory : Path)
    (hlive : s.process.Live h.nextPid (h.log ++ [(h.nextPid, .spawn)]))
    (hlaunched : next.launched = h.launched) (hpid : next.nextPid = h.nextPid + 1) :
    Contained h (next.conclude directory s.close) [⟨s.close.process, directory⟩] := by
  obtain ⟨hended, hsame, hlog⟩ := hlive.terminate s.clock
  have hended' : s.close.process.Ended :=
    ⟨hended.terminated, hended.input_closed, hended.events_eq, hended.exited⟩
  have hsame' : s.close.process.pid = h.nextPid := hsame
  have hnext : (next.conclude directory s.close).nextPid = h.nextPid + 1 := hpid
  constructor
  · exact congrArg (· ++ _) hlaunched
  · calc (next.conclude directory s.close).log
        = h.log ++ [(h.nextPid, ProcessEvent.spawn)] ++
            s.close.process.teardown.map (h.nextPid, ·) := hlog
      _ = h.log ++ Launched.calls ⟨s.close.process, directory⟩ := by
          rw [Launched.calls, hended'.events_eq, hsame', List.map_cons, List.append_assoc,
            List.singleton_append]
      _ = h.log ++ List.flatMap Launched.calls [⟨s.close.process, directory⟩] := by
          rw [List.flatMap_singleton]
  · simpa using hended'
  · omega
  · intro l hl
    rw [List.mem_singleton] at hl
    subst hl
    show h.nextPid ≤ s.close.process.pid ∧ s.close.process.pid < _
    omega
  · exact List.nodup_singleton _

/-- A session that is worked with and closed is contained, whatever becomes of the work. -/
theorem withSession_contained {α : Type} {server : Server} {directory : Path} {tracing : Bool}
    {work : Session τ → α × Session τ} {h next : Host τ} {result : Except SessionError α}
    (hsession : h.withSession server directory tracing work = (result, next))
    (hwork : ∀ I : Process τ → Prop, Process.Stable I →
      ∀ s : Session τ, I s.process → I (work s).2.process) :
    ∃ closed, h.Contained next closed := by
  unfold withSession at hsession
  split at hsession
  · next hstart =>
    obtain ⟨-, rfl⟩ := Prod.mk.inj hsession
    exact ⟨_, start_error hstart⟩
  · next process started hstart =>
    obtain ⟨hlive, hlaunched, hpid⟩ := start_ok hstart
    obtain ⟨-, rfl⟩ := Prod.mk.inj hsession
    have hworked := hwork _ (Process.live_stable _ _)
      (Session.attach server.label tracing 1024 started.clock process) hlive
    exact ⟨_, conclude_contained directory hworked hlaunched hpid⟩

end Session

end Host

/-! ## The benchmarks -/

section Benchmarks

variable [Clock τ]

theorem Task.run_contained (task : Task) (b : BenchSettings τ) (params : String → String → Json)
    (server : Server) (h : Host τ) :
    ∃ closed, h.Contained (task.run b params server h).2 closed := by
  apply Task.run_across Host.composes_contained
  intro α work h next result hwork hsession
  refine Host.withSession_contained hsession ?_
  intro I hI s hs
  rw [hwork]
  exact (task.after_plays h.files b params s).stable hI hs

theorem Session.close_close (s : Session τ) : s.close.close = s.close := by
  have hended : s.close.process.terminated = true :=
    Process.terminated_terminate s.process s.clock
  have hsame : s.close.process.terminate s.close.clock = s.close.process :=
    Process.terminate_of_terminated hended s.close.clock
  rw [Session.close, hsame]
  rfl

/-- **A benchmark leaves no server behind.**  Whatever its servers do and however it ends, every
process that it started was ended before it started the next, so that no two ever ran; and closing
their sessions again changes nothing. -/
theorem Task.run_leaves_no_server (task : Task) (b : BenchSettings τ)
    (params : String → String → Json) (server : Server) (h : Host τ) :
    (∃ closed, (task.run b params server h).2.launched = h.launched ++ closed ∧
      (task.run b params server h).2.log = h.log ++ closed.flatMap Launched.calls ∧
      (∀ l ∈ closed, l.process.Ended) ∧
      (closed.map (·.process.pid)).Nodup ∧
      ∀ front back, closed.flatMap Launched.calls = front ++ back →
        (runningAfter front).length ≤ 1) ∧
    ∀ (s : Session τ) (n : Nat), Session.close^[n] s.close = s.close := by
  obtain ⟨closed, hcontained⟩ := task.run_contained b params server h
  refine ⟨⟨closed, hcontained.launched, hcontained.log, hcontained.ended, hcontained.nodup, ?_⟩, ?_⟩
  · intro front back hsplit
    exact runningAfter_flatMap hcontained.ended hsplit
  · intro s n
    exact Function.iterate_fixed s.close_close n

end Benchmarks

end Latency
