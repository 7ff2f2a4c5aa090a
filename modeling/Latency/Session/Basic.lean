import Latency.Files
import Latency.Pipeline
import Latency.Server.Process
import Latency.Value.Text
/-!
# Sessions

A session drives one server. This module holds its state, the messages it knows and the steps that
receive nothing.
-/

namespace Latency

inductive SessionError where
  | timeout
  | ended
  | write (label : String) (failure : WriteFailure)
  /-- The server answered `initialize` with an error. -/
  | refused (detail : String)
  | unreadable (path : Path) (cause : FileError)
  | spawn (cmd : String) (failure : SpawnFailure)
  /-- The end of a wait is beyond what the clock can show. -/
  | endless

def SessionError.message : SessionError → String
  | .timeout => "timeout"
  | .ended => "EOF"
  | .write label failure => label ++ ": " ++ failure.reason
  | .refused detail => "initialize: " ++ detail
  | .unreadable path cause => path.text ++ ": " ++ cause.reason
  | .spawn cmd failure => cmd ++ ": " ++ failure.reason
  | .endless => "int too large to convert to float"

/-- A failure that is reported by its kind and its text and not as an outcome. -/
structure Crash where
  kind : String
  text : String

def SessionError.crash? : SessionError → Option Crash
  | .unreadable _ .badPath => some ⟨"ValueError", FileError.badPath.reason⟩
  | .spawn _ .holdsNul => some ⟨"ValueError", FileError.badPath.reason⟩
  | .endless => some ⟨"OverflowError", SessionError.endless.message⟩
  | _ => none

structure Session (τ : Type) where
  label : String
  /-- Whether messages are noted on the error stream. -/
  tracing : Bool := false
  clock : τ
  process : Process τ
  pipe : Pipeline := {}
  nextId : Nat := 1
  /-- The texts that the server logged, as far as they were taken. -/
  logs : List String := []
  sawEnd : Bool := false
  trace : List String := []

structure Diagnostics (τ : Type) where
  count : Nat
  elapsed : τ
  message : Json

def requestMessage (id : Nat) (method : String) (params : Json) : Json :=
  .obj [("jsonrpc", .str "2.0"), ("id", .int id), ("method", .str method), ("params", params)]

def notificationMessage (method : String) (params : Json) : Json :=
  .obj [("jsonrpc", .str "2.0"), ("method", .str method), ("params", params)]

/-- Whether a message is the response to a request; one without an id answers to null. -/
def answers (id : Json) (m : Json) : Bool :=
  (messageId m).equals id && !m.has "method"

def logText? (m : Json) : Option String :=
  match m.get? "method", m.get? "params" with
  | some (.str "window/logMessage"), some (.obj members) =>
    match members.lookup "message" with
    | none => none
    | some .null => none
    | some v => some v.display
  | _, _ => none

def publishDiagnostics : String := "textDocument/publishDiagnostics"

/-- How many diagnostics a message lists, if it publishes any. -/
def diagnosticsCount? (m : Json) : Option Nat :=
  match m.get? "method" with
  | some (.str method) =>
    if method = publishDiagnostics then
      match (m.get? "params").bind (·.get? "diagnostics") with
      | some (.arr items) => some items.length
      | _ => some 0
    else none
  | _ => none

/-- What the client declares it can do; the same for every server, so that answers compare. -/
def clientCapabilities : Json :=
  let plain := ("dynamicRegistration", Json.bool false)
  let links := Json.obj [plain, ("linkSupport", .bool true)]
  .obj [
    ("textDocument", .obj [
      ("publishDiagnostics", .obj []),
      ("definition", links),
      ("declaration", links),
      ("hover", .obj [plain, ("contentFormat", .arr [.str "plaintext", .str "markdown"])]),
      ("completion", .obj [plain, ("completionItem", .obj [("snippetSupport", .bool false)])]),
      ("documentSymbol", .obj [plain]),
      ("documentLink", .obj [plain]),
      ("references", .obj [plain]),
      ("rename", .obj [plain]),
      ("signatureHelp", .obj [plain]),
      ("codeAction", .obj [plain])]),
    ("workspace", .obj [("symbol", .obj [plain])])]

def clientPid : Int := 4242

namespace Session

variable {τ : Type} [Clock τ]

def note (line : String) (s : Session τ) : Session τ :=
  if s.tracing then { s with trace := s.trace ++ [line] } else s

def decodedLine (label : String) (m : Json) : String :=
  match m.get? "method" with
  | some method => "[" ++ label ++ " <-] " ++ method.display
  | none => "[" ++ label ++ " <-] response id=" ++ (messageId m).display

def settle (s : Session τ) : Session τ :=
  let (pipe, decoded) := s.pipe.settle
  decoded.foldl (fun acc m => acc.note (decodedLine s.label m)) { s with pipe := pipe }

def attach (label : String) (tracing : Bool) (capacity : Nat) (clock : τ) (p : Process τ) :
    Session τ :=
  { label := label, tracing := tracing, clock := clock, process := p
    pipe := { capacity := capacity } }

/-- Stops taking messages and terminates the process. A second call changes nothing. -/
def close (s : Session τ) : Session τ :=
  { s with
    pipe := s.pipe.close
    process := { s.process.terminate s.clock with pending := [] } }

def residentMemory (s : Session τ) : Option Int × Session τ :=
  let (kb, p) := s.process.residentMemory s.clock
  (kb, { s with process := p })

def sleep (seconds : τ) (s : Session τ) : Session τ :=
  { s with clock := Clock.add s.clock seconds }

end Session

end Latency
