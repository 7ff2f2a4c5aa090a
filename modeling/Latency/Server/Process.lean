import Latency.Server.Script
/-!
# Server processes

A running server with its input and its output to come. Output is kept as a list in the order of
arrival. `terminate` kills and reaps the process; only the first call does anything.
-/

namespace Latency

inductive ProcessEvent where
  | spawn
  | killGroup
  | kill
  | wait
  | closeInput
deriving Repr, DecidableEq

inductive MemorySource where
  /-- Every look finds the same. -/
  | always (probe : Probe)
  /-- Each look takes the next; behind the last one the process is not found. -/
  | each (probes : List Probe)

inductive WriteFailure where
  | closedInput
  | brokenPipe

def WriteFailure.reason : WriteFailure → String
  | .closedInput => "write to closed file"
  | .brokenPipe => "[Errno 32] Broken pipe"

structure Process (τ : Type) where
  script : Script τ
  pid : Int
  argv : List String
  /-- What will arrive and when, in order. -/
  pending : List (τ × Arrival) := []
  /-- The time and the code of the earliest exit. -/
  exitAt : Option (τ × Int) := none
  killed : Bool := false
  /-- The exit code as the first poll found it. -/
  returnCode : Option Int := none
  inputClosed : Bool := false
  terminated : Bool := false
  memory : MemorySource
  sent : List Json := []
  events : List ProcessEvent := [.spawn]
  /-- The calls on all processes of the machine so far, each with the process it was made on. -/
  log : List (Int × ProcessEvent) := []

def messageMethod? (m : Json) : Option String :=
  match m.get? "method" with
  | some (.str s) => some s
  | _ => none

namespace Process

variable {τ : Type} [Clock τ]

/-- Files an arrival behind all that come no later. -/
def insertArrival (time : τ) (a : Arrival) : List (τ × Arrival) → List (τ × Arrival)
  | [] => [(time, a)]
  | (t, b) :: rest =>
    if Clock.before time t then (time, a) :: (t, b) :: rest
    else (t, b) :: insertArrival time a rest

def start (now : τ) (id : Json) (p : Process τ) (c : Chunk τ) : Process τ :=
  let time := Clock.add now c.delay
  let arrival := c.action.arrival id
  let exitAt :=
    match arrival, p.exitAt with
    | .exit code, none => some (time, code)
    | .exit code, some (t, k) => if Clock.before time t then some (time, code) else some (t, k)
    | _, known => known
  { p with pending := insertArrival time arrival p.pending, exitAt := exitAt }

def startAll (now : τ) (id : Json) (chunks : List (Chunk τ)) (p : Process τ) : Process τ :=
  chunks.foldl (start now id) p

def launch (script : Script τ) (pid : Int) (argv : List String) (memory : MemorySource)
    (log : List (Int × ProcessEvent)) (now : τ) : Process τ :=
  startAll now .null script.out
    { script := script, pid := pid, argv := argv, memory := memory, log := log }

def exitCode? (now : τ) (p : Process τ) : Option Int :=
  if p.killed then some (-9)
  else
    match p.exitAt with
    | some (t, code) => if Clock.upTo t now then some code else none
    | none => none

/-- Asks for the exit code; the first answer is kept. -/
def poll (now : τ) (p : Process τ) : Option Int × Process τ :=
  match p.returnCode with
  | some code => (some code, p)
  | none =>
    let code := p.exitCode? now
    (code, { p with returnCode := code })

def isAlive (now : τ) (p : Process τ) : Bool × Process τ :=
  if p.terminated then (false, p)
  else
    let (code, q) := p.poll now
    (code.isNone, q)

def nextProbe (p : Process τ) : Probe × Process τ :=
  match p.memory with
  | .always probe => (probe, p)
  | .each [] => (.finished 1 "" "", p)
  | .each (probe :: rest) => (probe, { p with memory := .each rest })

/-- The resident memory in kilobytes, while it runs and can be looked at. -/
def residentMemory (now : τ) (p : Process τ) : Option Int × Process τ :=
  let (alive, q) := p.isAlive now
  if alive then
    let (probe, r) := q.nextProbe
    (probe.integer?, r)
  else (none, q)

def record (e : ProcessEvent) (p : Process τ) : Process τ :=
  { p with events := p.events ++ [e], log := p.log ++ [(p.pid, e)] }

def kill (p : Process τ) : Process τ :=
  let q := p.record .killGroup
  if q.script.faults.killGroup then { q.record .kill with killed := true }
  else { q with killed := true }

/-- Waits for its end; unless the wait fails, the exit code is known afterwards. -/
def wait (now : τ) (p : Process τ) : Process τ :=
  let q := p.record .wait
  if q.script.faults.wait then q else (q.poll now).2

def closeInput (p : Process τ) : Process τ :=
  if p.inputClosed then p else { p.record .closeInput with inputClosed := true }

/-- Kills the process unless it is gone, waits for it and closes its input; once only. -/
def terminate (now : τ) (p : Process τ) : Process τ :=
  if p.terminated then p
  else
    let (code, q) := { p with terminated := true }.poll now
    let r := if code.isNone then q.kill else q
    (r.wait now).closeInput

def writtenCount (method : String) (p : Process τ) : Nat :=
  p.sent.countP fun m => messageMethod? m == some method

/-- Writes a message to its input, which starts the server's reply. -/
def write (now : τ) (m : Json) (p : Process τ) : Except WriteFailure Unit × Process τ :=
  if p.inputClosed then (.error .closedInput, p)
  else if (p.exitCode? now).isSome then (.error .brokenPipe, p)
  else
    let q := { p with sent := p.sent ++ [m] }
    let chunks :=
      match messageMethod? m with
      | some method => p.script.reply method (p.writtenCount method)
      | none => []
    (.ok (), q.startAll now (messageId m) chunks)

end Process

end Latency
