import Latency.Bench.Requests
import Latency.Tally
/-!
# Time of a request after an edit

Each edit replaces the document and is followed by one request at the edit's own position. There is
no warm-up, and answers are kept whether they are usable or not.
-/

namespace Latency

variable {τ : Type} [Clock τ]

def editLabel (i total : Nat) (edit : ResolvedEdit) : String × String :=
  let count := "[" ++ toString (i + 1) ++ "/" ++ toString total ++ "] "
  (count ++ "didChange " ++ edit.path.name, count ++ edit.path.name)

/-- The edits from number `i` on. The document was opened as version 1, so the first edit makes
version 2. -/
def editRounds (files : Files) (b : BenchSettings τ) (method : String) (total : Nat)
    (ready : Session.Ready τ) (samples : List (Sample τ)) (i : Nat) :
    List ResolvedEdit → Session τ → Report τ × Session τ
  | [], s => (⟨[], .ok (.ok samples (some ready.diagnostics) ready.memory)⟩, s)
  | edit :: rest, s =>
    let (changing, done) := editLabel i total edit
    match files.readText edit.path with
    | .error cause =>
      (⟨[changing], s.failure "" (.unreadable edit.path cause) ready.memory⟩, s)
    | .ok text =>
      match s.changeFile ready.uri (.int (i + 2)) text with
      | (.error e, next) => (⟨[changing], next.failure "" e ready.memory⟩, next)
      | (.ok (), changed) =>
        let params := Params.build method ready.uri edit.line edit.col none
        match timedRequest method params b.timeout changed with
        | (.error e, next) => (⟨[changing], next.failure "" e ready.memory⟩, next)
        | (.ok (response, ms), next) =>
          let flag := if isValidResponse response then "" else "  (null)"
          let sample := responseSample b.responseLimit response ms
          let (report, last) :=
            editRounds files b method total ready (samples ++ [sample]) (i + 1) rest next
          (report.after [changing, done ++ millisText ms ++ flag], last)

def benchEdits (server : Server) (b : BenchSettings τ) (method : String)
    (edits : List ResolvedEdit) (h : Host τ) : Report τ × Host τ :=
  onSession server b (fun ready s =>
    editRounds h.files b method edits.length ready [] 0 edits s) h

end Latency
