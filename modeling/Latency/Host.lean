import Latency.Session.Request
/-!
# The machine

What a run sees of the machine it runs on: the clock, the servers that can be started, and helper
programs. `withSession` starts a server, lets a session work with it, and closes the session however
the work ended.
-/

namespace Latency

structure Server where
  label : String
  cmd : String
  args : List String := []
  description : String := ""
  link : String := ""
deriving Repr, DecidableEq

structure Launched (τ : Type) where
  process : Process τ
  directory : Path

structure Host (τ : Type) where
  clock : τ
  files : Files
  /-- The behaviour of each executable when it is started for the first, second, ... time; the last
  one repeats. -/
  servers : List (String × List (Script τ)) := []
  starts : List (String × Nat) := []
  nextPid : Int := 1000
  /-- What every look at a process's memory finds, if that does not depend on the process. -/
  memory : Option Probe := none
  lookups : List (String × HelperRun) := []
  /-- What asking an executable for its version gives. -/
  versions : List (String × HelperRun) := []
  /-- The time of day, which stands still in a run. -/
  now : Moment
  /-- The processes that were started and are closed, in order. -/
  launched : List (Launched τ) := []
  /-- The calls on processes, in the order they were made. -/
  log : List (Int × ProcessEvent) := []
  trace : List String := []

namespace Host

variable {τ : Type} [Clock τ]

def nextScript? (h : Host τ) (program : String) : Option (Script τ) :=
  match h.servers.lookup program with
  | none => none
  | some scripts => scripts[min ((h.starts.lookup program).getD 0) (scripts.length - 1)]?

def launch (server : Server) (program : String) (h : Host τ) :
    Except SpawnFailure (Process τ) × Host τ :=
  match h.nextScript? program with
  | none => (.error (.system .missing), h)
  | some script =>
    let counted :=
      { h with starts := Json.put program ((h.starts.lookup program).getD 0 + 1) h.starts }
    match script.failure with
    | some why => (.error (.system why), counted)
    | none =>
      let clock := Clock.add h.clock (script.spawnCost.getD Clock.zero)
      let memory :=
        match h.memory with
        | some probe => MemorySource.always probe
        | none => MemorySource.each script.memory
      let log := h.log ++ [(h.nextPid, .spawn)]
      (.ok (Process.launch script h.nextPid (program :: server.args) memory log clock),
        { counted with clock := clock, nextPid := h.nextPid + 1, log := log })

/-- Starts a server in a directory. The system is not asked if any of the texts for it holds
a NUL. -/
def start (server : Server) (directory : Path) (h : Host τ) :
    Except SpawnFailure (Process τ) × Host τ :=
  match h.files.executable server.cmd with
  | .error _ => (.error .holdsNul, h)
  | .ok program =>
    if (directory.text :: program :: server.args).any Text.holdsNul then (.error .holdsNul, h)
    else h.launch server program

def conclude (directory : Path) (s : Session τ) (h : Host τ) : Host τ :=
  { h with
    clock := s.clock
    launched := h.launched ++ [⟨s.process, directory⟩]
    log := s.process.log
    trace := h.trace ++ s.trace }

def withSession {α : Type} (server : Server) (directory : Path) (tracing : Bool)
    (work : Session τ → α × Session τ) (h : Host τ) : Except SessionError α × Host τ :=
  match h.start server directory with
  | (.error failure, next) => (.error (.spawn server.cmd failure), next)
  | (.ok process, next) =>
    let (result, s) := work (Session.attach server.label tracing 1024 next.clock process)
    (.ok result, next.conclude directory s.close)

end Host

end Latency
