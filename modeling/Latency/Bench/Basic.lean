import Latency.Host
import Latency.Row
/-!
# Benchmarks of one server

What all benchmarks of a server share: their settings, the words for an iteration, and the
preparation of a session that is kept for many requests.
-/

namespace Latency

/-- The settings of a benchmark; a response limit of 0 is none. -/
structure BenchSettings (τ : Type) where
  directory : Path
  rootUri : String
  target : Path
  warmup : Int
  iterations : Int
  timeout : τ
  indexTimeout : τ
  responseLimit : Nat := 80
  languageId : String := "solidity"
  tracing : Bool := false

def BenchSettings.total {τ : Type} (b : BenchSettings τ) : Nat :=
  (b.warmup + b.iterations).toNat

def iterationLabel (i warmup iterations : Int) : String :=
  if i < warmup then "warmup " ++ toString (i + 1) ++ "/" ++ toString warmup
  else "iter " ++ toString (i - warmup + 1) ++ "/" ++ toString iterations

def BenchSettings.label {τ : Type} (b : BenchSettings τ) (i : Nat) : String :=
  iterationLabel i b.warmup b.iterations

abbrev Ended (τ : Type) := Except Crash (Outcome τ)

/-- What a benchmark gives: the lines it showed on the way, and how it ended. -/
structure Report (τ : Type) where
  progress : List String
  outcome : Ended τ

def Report.after {τ : Type} (lines : List String) (r : Report τ) : Report τ :=
  { r with progress := lines ++ r.progress }

namespace Session

variable {τ : Type} [Clock τ]

/-- A failure with the log so far. `place` stands in front of its text. -/
def failure (place : String) (e : SessionError) (memory : Option Int) (s : Session τ) : Ended τ :=
  match e.crash? with
  | some crash => .error crash
  | none => .ok (.failed (place ++ e.message) s.logs memory)

/-- A failure with the log so far and the memory of the server at this moment. -/
def failureNow (place : String) (e : SessionError) (s : Session τ) : Ended τ × Session τ :=
  let (memory, next) := s.residentMemory
  (next.failure place e memory, next)

structure Ready (τ : Type) where
  uri : String
  diagnostics : Diagnostics τ
  /-- The memory of the server after it has indexed the document. -/
  memory : Option Int

def waitingLine : String := "waiting for diagnostics"

def openTarget (files : Files) (b : BenchSettings τ) (s : Session τ) :
    Except SessionError String × Session τ :=
  match s.handshake b.rootUri with
  | (.error e, next) => (.error e, next)
  | (.ok _, next) => next.openFile files b.target b.languageId

def prepare (files : Files) (b : BenchSettings τ) (s : Session τ) :
    List String × Except (Ended τ) (Ready τ) × Session τ :=
  match s.openTarget files b with
  | (.error e, next) =>
    let (outcome, last) := next.failureNow "" e
    ([], .error outcome, last)
  | (.ok uri, next) =>
    match next.waitForDiagnostics b.indexTimeout with
    | (.error e, last) =>
      let (outcome, last) := last.failureNow "wait_for_diagnostics: " e
      ([waitingLine], .error outcome, last)
    | (.ok diagnostics, last) =>
      let (memory, last) := last.residentMemory
      ([waitingLine], .ok ⟨uri, diagnostics, memory⟩, last)

def prepareAndWork (files : Files) (b : BenchSettings τ)
    (work : Ready τ → Session τ → Report τ × Session τ) (s : Session τ) : Report τ × Session τ :=
  match s.prepare files b with
  | (lines, .error outcome, next) => (⟨lines, outcome⟩, next)
  | (lines, .ok ready, next) =>
    let (report, last) := work ready next
    (report.after lines, last)

end Session

def notStarted {τ : Type} (e : SessionError) : Ended τ :=
  match e.crash? with
  | some crash => .error crash
  | none => .ok (.failed e.message [] none)

def onSession {τ : Type} [Clock τ] (server : Server) (b : BenchSettings τ)
    (work : Session.Ready τ → Session τ → Report τ × Session τ) (h : Host τ) :
    Report τ × Host τ :=
  match h.withSession server b.directory b.tracing (Session.prepareAndWork h.files b work) with
  | (.error e, next) => (⟨["spawning"], notStarted e⟩, next)
  | (.ok report, next) => (report.after ["spawning"], next)

def millisText {τ : Type} [Clock τ] (ms : τ) : String :=
  "  " ++ Clock.tenths ms ++ "ms"

end Latency
