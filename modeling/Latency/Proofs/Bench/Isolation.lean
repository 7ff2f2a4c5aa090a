import Mathlib.Data.List.Forall2
import Latency.Proofs.Bench.Protocol
import Latency.Proofs.Bench.Rows
import Latency.Proofs.Json.Members
import Latency.Proofs.Session.Shift
/-!
# No server sees another

A sweep measures servers one after another on one machine.  What a server did leaves traces there:
the clock has moved on, processes have been started and the calls on them are logged.  Another
server finds its own executable as often started as before (`Host.Alike`), and nothing else of this
reaches what it does.  So it gets the row that it gets alone.
-/

namespace Latency

/-! ## Work that does not depend on the moment -/

section Shifted

variable (k : Shift) (s : Session Rat) (b : BenchSettings Rat)

theorem timedRequest_shift (method : String) (params : Json) (timeout : Rat) :
    timedRequest method params timeout (s.shift k) =
      k.after (timedRequest method params timeout s) := by
  unfold timedRequest
  rw [Session.request_shift]
  cases s.request method params timeout with
  | mk result next =>
    cases result with
    | error e => rfl
    | ok response =>
      simp only [Shift.after_mk, Session.clock_shift, Shift.elapsed_time]

theorem requestRounds_shift (method : String) (params : Json) (ready : Session.Ready Rat)
    (samples : List (Sample Rat)) (i n : Nat) :
    requestRounds b method params ready samples i n (s.shift k) =
      k.after (requestRounds b method params ready samples i n s) := by
  induction n generalizing samples i s with
  | zero => rfl
  | succ n ih =>
    unfold requestRounds
    rw [timedRequest_shift]
    cases timedRequest method params b.timeout s with
    | mk result next =>
      cases result with
      | error e => rfl
      | ok answer =>
        simp only [Shift.after_mk, ih]
        split
        · rfl
        · split <;> rfl

theorem editRounds_shift (files : Files) (method : String) (total : Nat)
    (ready : Session.Ready Rat) (samples : List (Sample Rat)) (i : Nat)
    (edits : List ResolvedEdit) :
    editRounds files b method total ready samples i edits (s.shift k) =
      k.after (editRounds files b method total ready samples i edits s) := by
  induction edits generalizing samples i s with
  | nil => rfl
  | cons edit rest ih =>
    unfold editRounds
    simp only
    split
    · rfl
    · next text _ =>
      rw [Session.changeFile_shift]
      cases s.changeFile ready.uri (.int (i + 2)) text with
      | mk result changed =>
        cases result with
        | error e => rfl
        | ok done =>
          simp only [Shift.after_mk, timedRequest_shift]
          cases timedRequest method (Params.build method ready.uri edit.line edit.col none)
              b.timeout changed with
          | mk result next =>
            cases result with
            | error e => rfl
            | ok answer =>
              simp only [Shift.after_mk, ih]
              rfl

theorem shakeHands_shift : shakeHands b (s.shift k) =
    ((shakeHands b s).1.map k.time, (shakeHands b s).2.shift k) := by
  unfold shakeHands
  rw [Session.handshake_shift]
  cases s.handshake b.rootUri with
  | mk result next => cases result <;> rfl

theorem indexDocument_shift (files : Files) :
    indexDocument files b (s.shift k) = k.after (indexDocument files b s) := by
  unfold indexDocument
  rw [Session.handshake_shift]
  cases s.handshake b.rootUri with
  | mk result ready =>
    cases result with
    | error e => rfl
    | ok response =>
      simp only [Shift.after_mk, Session.openFile_shift]
      cases ready.openFile files b.target b.languageId with
      | mk result opened =>
        cases result with
        | error e => rfl
        | ok uri =>
          simp only [Shift.after_mk, Session.waitForDiagnostics_shift]
          cases opened.waitForDiagnostics b.indexTimeout with
          | mk result next =>
            cases result with
            | error e =>
              simp only [Shift.after_mk, Session.failureNow_shift]
              rfl
            | ok diagnostics =>
              simp only [Shift.after_mk, Session.residentMemory_shift, Session.clock_shift,
                Shift.elapsed_time]
              rfl

end Shifted

/-! ## Machines that are alike for a server -/

/-- Machines on which a server is started in the same way: as for it, they may differ in the clock,
in the processes they have run and in how often they have started other servers. -/
structure Host.Alike (server : Server) (h h' : Host Rat) : Prop where
  files : h'.files = h.files
  servers : h'.servers = h.servers
  memory : h'.memory = h.memory
  starts : ∀ program, h.files.executable server.cmd = .ok program →
    h'.starts.lookup program = h.starts.lookup program

namespace Host

variable {server : Server} {h h' h'' : Host Rat}

theorem Alike.refl (server : Server) (h : Host Rat) : Alike server h h :=
  ⟨rfl, rfl, rfl, fun _ _ => rfl⟩

theorem Alike.trans (hfirst : Alike server h h') (hsecond : Alike server h' h'') :
    Alike server h h'' where
  files := hsecond.files.trans hfirst.files
  servers := hsecond.servers.trans hfirst.servers
  memory := hsecond.memory.trans hfirst.memory
  starts := by
    intro program hprogram
    have hthere : h'.files.executable server.cmd = .ok program := by rw [hfirst.files, hprogram]
    exact (hsecond.starts program hthere).trans (hfirst.starts program hprogram)

def shiftTo (h h' : Host Rat) : Shift where
  delay := h'.clock - h.clock
  pid := h'.nextPid
  log := h'.log ++ [(h'.nextPid, .spawn)]

theorem time_shiftTo (h h' : Host Rat) : (h.shiftTo h').time h.clock = h'.clock :=
  add_sub_cancel h.clock h'.clock

theorem Alike.counted (halike : Alike server h h') {program : String}
    (hprogram : h.files.executable server.cmd = .ok program) (count : Nat) :
    Alike server { h with starts := Json.put program count h.starts }
      { h' with starts := Json.put program count h'.starts } where
  files := halike.files
  servers := halike.servers
  memory := halike.memory
  starts := by
    intro other hother
    obtain rfl := Except.ok.inj (hprogram.symm.trans hother)
    rw [Json.lookup_put_self, Json.lookup_put_self]

theorem start_alike (halike : Alike server h h') (directory : Path) :
    ∃ next', h'.start server directory =
        ((h.start server directory).1.map (Process.shift (h.shiftTo h')), next') ∧
      (∀ p, (h.start server directory).1 = .ok p →
        next'.clock = (h.shiftTo h').time (h.start server directory).2.clock) ∧
      Alike server (h.start server directory).2 next' := by
  unfold start
  rw [halike.files]
  cases hprogram : h.files.executable server.cmd with
  | error e => exact ⟨h', rfl, by simp, halike⟩
  | ok program =>
    by_cases hnul : (directory.text :: program :: server.args).any Text.holdsNul = true
    · simp only [if_pos hnul]
      exact ⟨h', rfl, by simp, halike⟩
    simp only [if_neg hnul]
    have hstarts := halike.starts program hprogram
    have hscript : h'.nextScript? program = h.nextScript? program := by
      rw [nextScript?, nextScript?, halike.servers, hstarts]
    have hcounted := halike.counted hprogram ((h.starts.lookup program).getD 0 + 1)
    unfold launch
    simp only [hscript, hstarts, halike.memory]
    cases h.nextScript? program with
    | none => exact ⟨h', rfl, by simp, halike⟩
    | some script =>
      cases hfailure : script.failure with
      | some failure =>
        simp only [hfailure]
        exact ⟨_, rfl, by simp, hcounted.files, hcounted.servers, rfl, hcounted.starts⟩
      | none =>
        simp only [hfailure]
        have hclock : Clock.add h'.clock (script.spawnCost.getD Clock.zero) =
            (h.shiftTo h').time (Clock.add h.clock (script.spawnCost.getD Clock.zero)) := by
          rw [← time_shiftTo h h', Shift.add_time]
        refine ⟨_, Prod.ext ?_ rfl, fun p _ => hclock, hcounted.files, hcounted.servers, rfl,
          hcounted.starts⟩
        rw [Except.map, ← Process.launch_shift, ← hclock]
        rfl

/-- Work that does not depend on the moment gives the same on a machine that is alike, shifted as
far as it tells a moment. -/
theorem withSession_alike {α : Type} (halike : Alike server h h') (directory : Path)
    (tracing : Bool) (work : Session Rat → α × Session Rat) (move : α → α)
    (hwork : ∀ s, work (s.shift (h.shiftTo h')) =
      (move (work s).1, (work s).2.shift (h.shiftTo h'))) :
    (h'.withSession server directory tracing work).1 =
        (h.withSession server directory tracing work).1.map move ∧
      Alike server (h.withSession server directory tracing work).2
        (h'.withSession server directory tracing work).2 := by
  obtain ⟨next', hstart', hclock, hnext⟩ := start_alike halike directory
  unfold withSession
  rw [hstart']
  cases hstart : h.start server directory with
  | mk result next =>
    rw [hstart] at hclock hnext
    cases result with
    | error failure => exact ⟨rfl, hnext⟩
    | ok p =>
      have hattach : Session.attach server.label tracing 1024 next'.clock
          (p.shift (h.shiftTo h')) =
            (Session.attach server.label tracing 1024 next.clock p).shift (h.shiftTo h') := by
        rw [hclock p rfl]
        rfl
      simp only [Except.map, hattach, hwork, true_and]
      exact ⟨hnext.files, hnext.servers, hnext.memory, hnext.starts⟩

end Host

/-! ## Benchmarks on machines that are alike -/

section Benchmarks

variable {server : Server} {h h' : Host Rat} {b : BenchSettings Rat}

theorem startOnce_alike (halike : h.Alike server h') :
    (startOnce server b h').1 = (startOnce server b h).1.map (h.shiftTo h').time ∧
      Host.Alike server (startOnce server b h).2 (startOnce server b h').2 := by
  obtain ⟨hresult, hnext⟩ := Host.withSession_alike halike b.directory b.tracing (shakeHands b)
    (Except.map (h.shiftTo h').time) (shakeHands_shift (h.shiftTo h') · b)
  unfold startOnce
  generalize h'.withSession server b.directory b.tracing (shakeHands b) = r' at hresult hnext
  generalize h.withSession server b.directory b.tracing (shakeHands b) = r at hresult hnext
  obtain ⟨result, next⟩ := r
  obtain ⟨result', next'⟩ := r'
  obtain rfl : result' = _ := hresult
  cases result with
  | error e => exact ⟨rfl, hnext⟩
  | ok finish => exact ⟨rfl, hnext⟩

theorem startRounds_alike (halike : h.Alike server h') (samples : List (Sample Rat)) (i n : Nat) :
    (startRounds server b samples i n h').1 = (startRounds server b samples i n h).1 := by
  induction n generalizing samples i h h' with
  | zero => rfl
  | succ n ih =>
    obtain ⟨hresult, hnext⟩ := startOnce_alike (b := b) halike
    have helapsed (finish : Rat) :
        Clock.elapsed h'.clock ((h.shiftTo h').time finish) = Clock.elapsed h.clock finish := by
      rw [← Host.time_shiftTo h h', Shift.elapsed_time]
    unfold startRounds
    generalize startOnce server b h' = r' at hresult hnext
    generalize startOnce server b h = r at hresult hnext
    obtain ⟨result, next⟩ := r
    obtain ⟨result', next'⟩ := r'
    obtain rfl : result' = _ := hresult
    cases result with
    | error outcome => rfl
    | ok finish => simp only [Except.map, helapsed, ih hnext]

theorem indexOnce_alike (halike : h.Alike server h') :
    (indexOnce server b h').1 = (indexOnce server b h).1 ∧
      Host.Alike server (indexOnce server b h).2 (indexOnce server b h').2 := by
  obtain ⟨hresult, hnext⟩ := Host.withSession_alike halike b.directory b.tracing
    (indexDocument h.files b) id (indexDocument_shift (h.shiftTo h') · b h.files)
  unfold indexOnce
  rw [halike.files]
  generalize h'.withSession server b.directory b.tracing (indexDocument h.files b) = r'
    at hresult hnext
  generalize h.withSession server b.directory b.tracing (indexDocument h.files b) = r
    at hresult hnext
  obtain ⟨result, next⟩ := r
  obtain ⟨result', next'⟩ := r'
  obtain rfl : result' = _ := hresult
  cases result with
  | error e => exact ⟨rfl, hnext⟩
  | ok indexed => exact ⟨rfl, hnext⟩

theorem indexRounds_alike (halike : h.Alike server h') (samples : List (Sample Rat))
    (last : Option (Diagnostics Rat)) (memory : Option Int) (i n : Nat) :
    (indexRounds server b samples last memory i n h').1 =
      (indexRounds server b samples last memory i n h).1 := by
  induction n generalizing samples last memory i h h' with
  | zero => rfl
  | succ n ih =>
    obtain ⟨hresult, hnext⟩ := indexOnce_alike (b := b) halike
    unfold indexRounds
    generalize indexOnce server b h' = r' at hresult hnext
    generalize indexOnce server b h = r at hresult hnext
    obtain ⟨result, next⟩ := r
    obtain ⟨result', next'⟩ := r'
    obtain rfl : result' = result := hresult
    cases result' with
    | error outcome => rfl
    | ok indexed =>
      simp only
      split <;> simp only [ih hnext]

theorem onSession_alike (halike : h.Alike server h')
    {work : Session.Ready Rat → Session Rat → Report Rat × Session Rat}
    (hwork : ∀ k ready (s : Session Rat), work ready (s.shift k) = Shift.after k (work ready s)) :
    (onSession server b work h').1 = (onSession server b work h).1 := by
  obtain ⟨hresult, -⟩ := Host.withSession_alike halike b.directory b.tracing
    (Session.prepareAndWork h.files b work) id
    fun s => Session.prepareAndWork_shift _ s h.files b (hwork _)
  unfold onSession
  rw [halike.files]
  generalize h'.withSession server b.directory b.tracing (Session.prepareAndWork h.files b work) =
    r' at hresult
  generalize h.withSession server b.directory b.tracing (Session.prepareAndWork h.files b work) =
    r at hresult
  obtain ⟨result, next⟩ := r
  obtain ⟨result', next'⟩ := r'
  obtain rfl : result' = _ := hresult
  cases result with
  | error e => rfl
  | ok report => rfl

/-- On machines that are alike for a server, a benchmark gives the same of it. -/
theorem Task.run_alike (task : Task) (params : String → String → Json)
    (halike : h.Alike server h') :
    (task.run b params server h').1 = (task.run b params server h).1 := by
  cases task with
  | startup => exact startRounds_alike halike [] 0 b.total
  | diagnostics => exact indexRounds_alike halike [] none none 0 b.total
  | requests method =>
    exact onSession_alike halike fun k ready s =>
      requestRounds_shift k s b method (params method ready.uri) ready [] 0 b.total
  | edits method list =>
    unfold Task.run benchEdits
    rw [halike.files]
    exact onSession_alike halike fun k ready s =>
      editRounds_shift k s b h.files method list.length ready [] 0 list

/-! ## What other servers leave behind -/

/-- The executables of two servers are different, as far as they have one. -/
def Server.Apart (files : Files) (server other : Server) : Prop :=
  ∀ program, files.executable server.cmd = .ok program → files.executable other.cmd ≠ .ok program

theorem Server.Apart.symm {files : Files} {other : Server} (hapart : server.Apart files other) :
    other.Apart files server := by
  intro program hother hserver
  exact hapart program hserver hother

theorem Host.start_of_other {other : Server} (hapart : server.Apart h.files other)
    (directory : Path) : Host.Alike server h (h.start other directory).2 := by
  unfold start
  cases hother : h.files.executable other.cmd with
  | error e => exact .refl server h
  | ok program =>
    have hstarts (count : Nat) (own : String) (hown : h.files.executable server.cmd = .ok own) :
        (Json.put program count h.starts).lookup own = h.starts.lookup own := by
      apply Json.lookup_put_of_ne
      rintro rfl
      exact hapart own hown hother
    unfold launch
    simp only
    split
    · exact .refl server h
    split
    · exact .refl server h
    · split
      · exact ⟨rfl, rfl, rfl, hstarts _⟩
      · exact ⟨rfl, rfl, rfl, hstarts _⟩

theorem Host.withSession_of_other {α : Type} {other : Server}
    (hapart : server.Apart h.files other) (directory : Path) (tracing : Bool)
    (work : Session Rat → α × Session Rat) :
    Host.Alike server h (h.withSession other directory tracing work).2 := by
  have hstarted := start_of_other hapart directory
  unfold withSession
  split
  · next hstart =>
    rw [hstart] at hstarted
    exact hstarted
  · next hstart =>
    rw [hstart] at hstarted
    exact ⟨hstarted.files, hstarted.servers, hstarted.memory, hstarted.starts⟩

/-- A benchmark of another server leaves a machine that is alike. -/
theorem Task.run_of_other (task : Task) (params : String → String → Json) {other : Server}
    (hapart : server.Apart h.files other) :
    Host.Alike server h (task.run b params other h).2 := by
  have hcomposes : Host.Composes fun h h' : Host Rat =>
      server.Apart h.files other → h.Alike server h' := by
    constructor
    · exact fun h _ => .refl server h
    · intro h h' h'' hfirst hsecond hapart
      have halike := hfirst hapart
      exact halike.trans (hsecond (halike.files ▸ hapart))
  refine Task.run_across hcomposes ?_ h hapart
  intro α work h next result _ hsession hapart
  have halike := Host.withSession_of_other hapart b.directory b.tracing work
  rwa [hsession] at halike

/-! ## Sweeps -/

theorem Task.row_alike (task : Task) (params : String → String → Json)
    (halike : h.Alike server h') :
    task.row b params server h' = task.row b params server h := by
  rw [Task.row, Task.row, task.run_alike params halike]

theorem forall₂_congr_of_mem {α β : Type} {R S : α → β → Prop} {xs : List α} {ys : List β}
    (hsame : ∀ x ∈ xs, ∀ y, R x y ↔ S x y) : List.Forall₂ R xs ys ↔ List.Forall₂ S xs ys := by
  induction xs generalizing ys with
  | nil => simp
  | cons x xs ih =>
    obtain ⟨hfirst, hothers⟩ := List.forall_mem_cons.1 hsame
    simp only [List.forall₂_cons_left_iff, hfirst, ih hothers]

/-- **No server sees another.**  A sweep over servers that have executables of their own makes of
each of them, wherever it stands, the row that a sweep of it alone makes, on the same machine; and
it makes no rows only if one of these cannot be made alone. -/
theorem sweepTask_isolates (task : Task) (b : BenchSettings Rat)
    (params : String → String → Json) (verbose : Bool) (servers : List Server) (h : Host Rat)
    (hapart : servers.Pairwise fun server other => server.Apart h.files other)
    (rows : List (Row Rat)) :
    (sweepTask task b params verbose servers h).1.rows = .ok rows ↔
      List.Forall₂ (fun server row =>
        (sweepTask task b params verbose [server] h).1.rows = .ok [row]) servers rows := by
  simp only [rows_sweepTask_singleton]
  induction servers generalizing h rows with
  | nil =>
    rw [rows_sweepTask_nil, List.forall₂_nil_left_iff, Except.ok.injEq, eq_comm]
  | cons first others ih =>
    obtain ⟨hfirst, hothers⟩ := List.pairwise_cons.1 hapart
    have hrest := ih (task.run b params first h).2 (by rwa [task.files_run])
    have hsame : ∀ server ∈ others, ∀ row,
        task.row b params server (task.run b params first h).2 = .ok row ↔
          task.row b params server h = .ok row := by
      intro server hserver row
      have halike := task.run_of_other (b := b) params (hfirst server hserver).symm
      rw [task.row_alike params halike]
    simp only [forall₂_congr_of_mem hsame] at hrest
    rw [rows_sweepTask_cons, List.forall₂_cons_left_iff]
    cases hmade : task.row b params first h with
    | error fault => simp
    | ok row =>
      simp only
      generalize (sweepTask task b params verbose others (task.run b params first h).2).1.rows =
        swept at hrest
      cases swept with
      | error fault =>
        simp only [Except.map, reduceCtorEq, false_iff, not_exists, not_and]
        intro made rest _ hforall
        exact absurd ((hrest rest).2 hforall) (by simp)
      | ok swept =>
        simp only [Except.map, Except.ok.injEq]
        constructor
        · rintro rfl
          exact ⟨row, swept, rfl, (hrest swept).1 rfl, rfl⟩
        · rintro ⟨made, rest, rfl, hforall, rfl⟩
          rw [Except.ok.inj ((hrest rest).2 hforall)]

end Benchmarks

section Crash

def crashServer : Server := { label := "a", cmd := "a" }

def soundServer : Server := { label := "b", cmd := "b" }

def crashSettings : BenchSettings Rat where
  directory := ⟨"/", []⟩
  rootUri := "file:///"
  target := ⟨"/", ["a.sol"]⟩
  warmup := 0
  iterations := 1
  timeout := 1
  indexTimeout := 2

def crashHost : Host Rat where
  clock := 0
  files := ⟨⟨"/", []⟩, []⟩
  servers := [("a", [{ out := [⟨1, .exit 1⟩], replies := [("initialize", [[]])] }]), ("b", [{}])]
  now := { date := ⟨2026, 2, 13⟩ }

theorem pairwise_apart_crash : [crashServer, soundServer].Pairwise fun server other =>
    server.Apart crashHost.files other := by
  rw [List.pairwise_pair]
  intro program hcrash hsound
  have hcmd : crashServer.cmd = program := Except.ok.inj hcrash
  have hcmd' : soundServer.cmd = program := Except.ok.inj hsound
  have hne : crashServer.cmd ≠ soundServer.cmd := by decide
  exact hne (hcmd.trans hcmd'.symm)

/-- A crash in front of it changes nothing for a server. -/
theorem sweepTask_isolates_crash : ∃ rows,
    (sweepTask .startup crashSettings (Params.forMethod [] 0 0) false [crashServer, soundServer]
      crashHost).1.rows = .ok rows ∧
    List.Forall₂ (fun server row =>
      (sweepTask .startup crashSettings (Params.forMethod [] 0 0) false [server]
        crashHost).1.rows = .ok [row]) [crashServer, soundServer] rows := by
  have hmade : (sweepTask .startup crashSettings (Params.forMethod [] 0 0) false
      [crashServer, soundServer] crashHost).1.rows.isOk = true := by
    decide +kernel
  cases hrows : (sweepTask .startup crashSettings (Params.forMethod [] 0 0) false
      [crashServer, soundServer] crashHost).1.rows with
  | error fault =>
    rw [hrows] at hmade
    cases hmade
  | ok rows =>
    have halone := (sweepTask_isolates .startup crashSettings (Params.forMethod [] 0 0) false
      [crashServer, soundServer] crashHost pairwise_apart_crash rows).1 hrows
    exact ⟨rows, rfl, halone⟩

end Crash

end Latency
