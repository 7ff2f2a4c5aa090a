import Latency.Bench.Basic
/-!
# Time to diagnostics

Every iteration starts a fresh server and times from the opening of the document to the first
diagnostics. The largest memory of all iterations is kept.
-/

namespace Latency

variable {τ : Type} [Clock τ]

/-- The larger of two memory samples, as far as they could be taken. -/
def peak (current sample : Option Int) : Option Int :=
  match current, sample with
  | a, none => a
  | none, some b => some b
  | some a, some b => some (max a b)

structure Indexed (τ : Type) where
  ms : τ
  diagnostics : Diagnostics τ
  memory : Option Int

def indexDocument (files : Files) (b : BenchSettings τ) (s : Session τ) :
    Except (Ended τ) (Indexed τ) × Session τ :=
  match s.handshake b.rootUri with
  | (.error e, next) => (.error (next.failure "" e none), next)
  | (.ok _, ready) =>
    match ready.openFile files b.target b.languageId with
    | (.error e, next) => (.error (next.failure "" e none), next)
    | (.ok _, opened) =>
      match opened.waitForDiagnostics b.indexTimeout with
      | (.error e, next) =>
        let (outcome, last) := next.failureNow "" e
        (.error outcome, last)
      | (.ok diagnostics, next) =>
        let ms := Clock.elapsed ready.clock next.clock
        let (memory, last) := next.residentMemory
        (.ok ⟨ms, diagnostics, memory⟩, last)

def indexOnce (server : Server) (b : BenchSettings τ) (h : Host τ) :
    Except (Ended τ) (Indexed τ) × Host τ :=
  match h.withSession server b.directory b.tracing (indexDocument h.files b) with
  | (.error e, next) => (.error (notStarted e), next)
  | (.ok result, next) => (result, next)

def Indexed.sample (limit : Nat) (r : Indexed τ) : Sample τ :=
  { ms := r.ms, response := responseSummary limit r.diagnostics.message }

def indexRounds (server : Server) (b : BenchSettings τ) (samples : List (Sample τ))
    (last : Option (Diagnostics τ)) (memory : Option Int) (i : Nat) :
    Nat → Host τ → Report τ × Host τ
  | 0, h => (⟨[], .ok (.ok samples last memory)⟩, h)
  | n + 1, h =>
    let waiting := b.label i ++ "  " ++ Session.waitingLine
    match indexOnce server b h with
    | (.error outcome, next) => (⟨[waiting], outcome⟩, next)
    | (.ok r, next) =>
      let high := peak memory r.memory
      let (report, final) :=
        if i < b.warmup then indexRounds server b samples last high (i + 1) n next
        else
          indexRounds server b (samples ++ [r.sample b.responseLimit]) (some r.diagnostics) high
            (i + 1) n next
      (report.after [waiting, b.label i ++ millisText r.ms], final)

def benchDiagnostics (server : Server) (b : BenchSettings τ) (h : Host τ) : Report τ × Host τ :=
  indexRounds server b [] none none 0 b.total h

end Latency
