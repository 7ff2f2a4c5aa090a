import Latency.Host
/-!
# Scenarios

A scenario says what a run finds: the files, the servers and how they behave, and the helper
programs. Scenarios are read from JSON; what is missing has its usual value.
-/

namespace Latency.Scenario

def member (j : Json) (key : String) : Json :=
  (j.get? key).getD .null

def items : Json → List Json
  | .arr xs => xs
  | _ => []

def members : Json → List (String × Json)
  | .obj ms => ms
  | _ => []

def text : Json → String
  | .str s => s
  | _ => ""

def integer : Json → Int
  | .num (.int n) => n
  | _ => 0

def seconds : Json → Number
  | .num n => .float n.reading
  | _ => Clock.zero

def octetsOfHex : List Char → List UInt8
  | a :: b :: rest =>
    match Text.hexValue? a, Text.hexValue? b with
    | some x, some y => UInt8.ofNat (16 * x + y) :: octetsOfHex rest
    | _, _ => []
  | _ => []

def octets (s : String) : List UInt8 :=
  Text.encodeUtf8 s.toList

def probe : Json → Probe
  | .str out => .finished 0 out ""
  | .num (.int n) => .finished 0 (toString n ++ "\n") ""
  | .obj ms =>
    match ms.lookup "raise" with
    | some (.str "timeout") => .timedOut
    | some _ => .notRun
    | none =>
      .finished (integer (member (.obj ms) "rc")) (text (member (.obj ms) "out"))
        (text (member (.obj ms) "err"))
  | _ => .finished 1 "" ""

def publishMessage (diagnostics : Json) : Json :=
  .obj [("jsonrpc", .str "2.0"), ("method", .str publishDiagnostics),
    ("params", .obj [("uri", .str "file:///d.sol"), ("diagnostics", diagnostics)])]

def logMessage (message : Json) : Json :=
  .obj [("jsonrpc", .str "2.0"), ("method", .str "window/logMessage"),
    ("params", .obj [("type", .int 3), ("message", message)])]

def action? : String × Json → Option Action
  | ("msg", v) => some (.message v)
  | ("result", v) => some (.respond "result" v)
  | ("error", v) => some (.respond "error" v)
  | ("diag", v) => some (.message (publishMessage v))
  | ("log", v) => some (.message (logMessage v))
  | ("raw", v) => some (.octets (octets (text v)))
  | ("hex", v) => some (.octets (octetsOfHex (text v).toList))
  | ("exit", v) => some (.exit (integer v))
  | ("eof", _) => some .endOutput
  | ("ioerr", _) => some .breakOutput
  | _ => none

def chunk (j : Json) : Chunk Number :=
  ⟨seconds (member j "at"), ((members j).findSome? action?).getD (.octets [])⟩

def chunks (j : Json) : List (Chunk Number) :=
  (items j).map chunk

def startError? : Json → Option StartError
  | .str "ENOENT" => some .missing
  | .str "EACCES" => some .denied
  | .str "ENOEXEC" => some .notExecutable
  | .str "E2BIG" => some .tooLong
  | _ => none

def faults (j : Json) : Faults :=
  let has (name : String) : Bool := (items j).any fun f => text f == name
  { killGroup := has "killpg_error", wait := has "wait_timeout" }

def script (j : Json) : Script Number where
  failure := startError? (member j "spawn_error")
  spawnCost := (j.get? "spawn_cost").map seconds
  out := chunks (member j "out")
  replies := (members (member j "on")).map fun m => (m.1, (items m.2).map chunks)
  memory := (items (member j "rss")).map probe
  faults := faults (member j "faults")

def digitsAt (s : String) (start length : Nat) : Nat :=
  Text.natOfDigits ((s.toList.drop start).take length)

def moment (s : String) : Moment :=
  { date := ⟨digitsAt s 0 4, digitsAt s 5 2, digitsAt s 8 2⟩, hour := digitsAt s 11 2
    minute := digitsAt s 14 2, second := digitsAt s 17 2 }

def usualMoment : String := "2026-02-13T10:30:05"

def entry : Json → Entry
  | .str s => .file (octets s)
  | .obj ms => .file (octetsOfHex (text (member (.obj ms) "hex")).toList)
  | _ => .directory

def files (base : Path) (j : Json) : Files :=
  (members j).foldl (fun acc m => acc.add (Path.ofString m.1) (entry m.2)) (Files.empty base)

def host (base : Path) (filesJson world : Json) : Host Number where
  clock := Clock.zero
  files := files base filesJson
  servers := (members (member world "servers")).map fun m => (m.1, (items m.2).map script)
  memory := (world.get? "ps").map probe
  lookups := (members (member world "which")).map fun m => (m.1, .told (probe m.2))
  versions := (members (member world "version")).map fun m => (m.1, .told (probe m.2))
  now := moment (match member world "now" with
    | .str s => s
    | _ => usualMoment)

end Latency.Scenario
