import Latency.Bench.Basic
/-!
# Time of a request

One request is sent again and again on one session that has waited for diagnostics. Each request is
sent when the one before it was answered. The first answer that is not usable ends the benchmark.
-/

namespace Latency

variable {τ : Type} [Clock τ]

def timedRequest (method : String) (params : Json) (timeout : τ) (s : Session τ) :
    Except SessionError (Json × τ) × Session τ :=
  match s.request method params timeout with
  | (.error e, next) => (.error e, next)
  | (.ok response, next) => (.ok (response, Clock.elapsed s.clock next.clock), next)

def responseSample (limit : Nat) (response : Json) (ms : τ) : Sample τ :=
  { ms := ms, response := responseSummary limit response, raw := some response }

def requestRounds (b : BenchSettings τ) (method : String) (params : Json)
    (ready : Session.Ready τ) (samples : List (Sample τ)) (i : Nat) :
    Nat → Session τ → Report τ × Session τ
  | 0, s => (⟨[], .ok (.ok samples (some ready.diagnostics) ready.memory)⟩, s)
  | n + 1, s =>
    match timedRequest method params b.timeout s with
    | (.error e, next) => (⟨[b.label i], next.failure "" e ready.memory⟩, next)
    | (.ok (response, ms), next) =>
      if i < b.warmup then
        let (report, last) := requestRounds b method params ready samples (i + 1) n next
        (report.after [b.label i], last)
      else if isValidResponse response then
        let samples := samples ++ [responseSample b.responseLimit response ms]
        let (report, last) := requestRounds b method params ready samples (i + 1) n next
        (report.after [b.label i, b.label i ++ millisText ms], last)
      else (⟨[b.label i], .ok (.invalid response (some ready.diagnostics) ready.memory)⟩, next)

def benchRequests (server : Server) (b : BenchSettings τ) (method : String)
    (params : String → Json) (h : Host τ) : Report τ × Host τ :=
  onSession server b (fun ready s =>
    requestRounds b method (params ready.uri) ready [] 0 b.total s) h

end Latency
