import Latency.Bench.Basic
/-!
# Start-up time

Every iteration starts a fresh server and times its start together with the handshake.
-/

namespace Latency

variable {τ : Type} [Clock τ]

def shakeHands (b : BenchSettings τ) (s : Session τ) : Except (Ended τ) τ × Session τ :=
  match s.handshake b.rootUri with
  | (.error e, next) => (.error (next.failure "" e none), next)
  | (.ok _, next) => (.ok next.clock, next)

def startOnce (server : Server) (b : BenchSettings τ) (h : Host τ) :
    Except (Ended τ) τ × Host τ :=
  match h.withSession server b.directory b.tracing (shakeHands b) with
  | (.error e, next) => (.error (notStarted e), next)
  | (.ok result, next) => (result, next)

def startRounds (server : Server) (b : BenchSettings τ) (samples : List (Sample τ)) (i : Nat) :
    Nat → Host τ → Report τ × Host τ
  | 0, h => (⟨[], .ok (.ok samples none none)⟩, h)
  | n + 1, h =>
    match startOnce server b h with
    | (.error outcome, next) => (⟨[b.label i], outcome⟩, next)
    | (.ok finish, next) =>
      let ms := Clock.elapsed h.clock finish
      let measured := if i < b.warmup then [] else [{ ms := ms, response := .str "ok" }]
      let (report, last) := startRounds server b (samples ++ measured) (i + 1) n next
      (report.after [b.label i, b.label i ++ millisText ms], last)

def benchStartup (server : Server) (b : BenchSettings τ) (h : Host τ) : Report τ × Host τ :=
  startRounds server b [] 0 b.total h

end Latency
