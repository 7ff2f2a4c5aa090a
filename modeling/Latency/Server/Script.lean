import Latency.Clock
import Latency.Frame
import Latency.Server.Probe
/-!
# Scripted servers

A server is known by what it does and when: octets it writes, how it ends, what it answers to each
message. Delays count from the moment at which a list of actions is started.
-/

namespace Latency

inductive Action where
  /-- Writes a framed message; a top-level `"id": "$id"` takes the id of the message it answers. -/
  | message (body : Json)
  /-- Writes a response that carries the id of the message it answers. -/
  | respond (key : String) (value : Json)
  | octets (bs : List UInt8)
  | exit (code : Int)
  | endOutput
  | breakOutput

structure Chunk (τ : Type) where
  delay : τ
  action : Action

inductive StartError where
  | missing
  | denied
  | notExecutable
  | tooLong

def StartError.reason : StartError → String
  | .missing => "No such file or directory"
  | .denied => "Permission denied"
  | .notExecutable => "Exec format error"
  | .tooLong => "Argument list too long"

inductive SpawnFailure where
  | system (why : StartError)
  /-- The command or an argument holds a NUL, so that the system is not even asked. -/
  | holdsNul

def SpawnFailure.reason : SpawnFailure → String
  | .system why => why.reason
  | .holdsNul => "embedded null byte"

structure Faults where
  killGroup : Bool := false
  wait : Bool := false

structure Script (τ : Type) where
  failure : Option StartError := none
  spawnCost : Option τ := none
  out : List (Chunk τ) := []
  /-- Actions started by the first, second, ... message of a method; the last list repeats. -/
  replies : List (String × List (List (Chunk τ))) := []
  memory : List Probe := []
  faults : Faults := {}

/-- The id of a message, null if it has none. -/
def messageId (m : Json) : Json :=
  (m.get? "id").getD .null

/-- A message whose placeholder is replaced by the id of the message it answers. -/
def fillId (id : Json) : Json → Json
  | .obj members => .obj (members.map fun m =>
      match m with
      | ("id", .str "$id") => ("id", id)
      | other => other)
  | j => j

inductive Arrival where
  | octets (bs : List UInt8)
  | exit (code : Int)
  | endOfOutput

def Action.arrival (id : Json) : Action → Arrival
  | .message body => .octets (Frame.encode (fillId id body))
  | .respond key value =>
    .octets (Frame.encode (.obj [("jsonrpc", .str "2.0"), ("id", id), (key, value)]))
  | .octets bs => .octets bs
  | .exit code => .exit code
  | .endOutput => .endOfOutput
  | .breakOutput => .endOfOutput

namespace Script

variable {τ : Type} [Clock τ]

/-- The answer to `initialize` of a server that does not say otherwise. -/
def defaultReply : List (Chunk τ) :=
  [⟨Clock.zero, .respond "result" (.obj [("capabilities", .obj [])])⟩]

def reply (s : Script τ) (method : String) (earlier : Nat) : List (Chunk τ) :=
  match s.replies.lookup method with
  | some lists => (lists[min earlier (lists.length - 1)]?).getD []
  | none => if method = "initialize" then defaultReply else []

end Script

end Latency
