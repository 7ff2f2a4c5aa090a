import Latency.Settings.Basic
import Latency.Summary
import Latency.Json.Printer
/-!
# Records of runs

The record of a run is a JSON document: when it was made, the settings, the servers with their
versions, and the rows of every benchmark. It is a file whose name is the time of the run.
-/

namespace Latency

abbrev Results := List (String × List (Row Number))

abbrev Versions := List (String × String)

namespace Record

def textMember (key text : String) : List (String × Json) :=
  if text = "" then [] else [(key, .str text)]

/-- A server with its version; what is known of it is taken from the last server with its label. -/
def serverEntry (servers : List Server) (label version : String) : Json :=
  let known :=
    match servers.reverse.find? fun s => s.label == label with
    | some s => textMember "description" s.description ++ textMember "link" s.link
    | none => []
  .obj ([("name", .str label), ("version", .str version)] ++ known)

def methodEntry (m : MethodSettings) : Json :=
  .obj (
    m.line.toList.map (fun n => ("line", Json.int n)) ++
    m.col.toList.map (fun n => ("col", Json.int n)) ++
    m.trigger.toList.map (fun t => ("trigger", Json.str t)) ++
    (if m.edits.isEmpty then []
     else [("didChange", Json.arr (m.edits.map fun e => .str e.file))]))

def settingsEntry (s : Settings) : Json :=
  .obj ([
    ("iterations", .int s.iterations),
    ("warmup", .int s.warmup),
    ("timeout_secs", .num s.timeout),
    ("index_timeout_secs", .num s.indexTimeout),
    ("project", .str s.project.text),
    ("file", .str s.file),
    ("line", .int s.line),
    ("col", .int s.col)] ++
    (if s.methods.isEmpty then []
     else [("methods", .obj (s.methods.map fun m => (m.1, methodEntry m.2)))]))

def benchmarkEntry (name : String) (rows : List (Row Number)) : Except Fault Json := do
  let servers ← rows.mapM Row.toJson
  return .obj [("name", .str name), ("servers", .arr servers)]

def build (now : Moment) (results : Results) (versions : Versions) (servers : List Server)
    (s : Settings) : Except Fault Json := do
  let benchmarks ← results.mapM fun r => benchmarkEntry r.1 r.2
  return .obj [
    ("timestamp", .str now.stamp),
    ("date", .str now.date.stamp),
    ("settings", settingsEntry s),
    ("servers", .arr (versions.map fun v => serverEntry servers v.1 v.2)),
    ("benchmarks", .arr benchmarks)]

def fileName (now : Moment) : String :=
  String.ofList (now.stamp.toList.map fun c => if c = ':' then '-' else c) ++ ".json"

/-- Writes a record into a directory, which is made if it is not there. -/
def save (now : Moment) (record : Json) (directory : Path) (files : Files) :
    Except FileError (Path × Files) := do
  let made ← files.makeDirectories directory
  let path := directory.child (fileName now)
  let written ← made.write path (Text.encodeUtf8 (Json.renderIndented record).toList)
  return (path, written)

end Record

def summaryLines (tools : Tools) (results : Results) : Except Fault (List String) := do
  let tables ← results.mapM fun r => formatSummary tools r.1 r.2
  return ["\nSummary:", String.ofList (List.replicate 70 '-')] ++ tables.flatMap fun t => [t, ""]

end Latency
