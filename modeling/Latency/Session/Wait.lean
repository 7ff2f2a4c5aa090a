import Latency.Session.Receive
/-!
# Waiting for responses and diagnostics

Both waits fix their deadline when they begin and take messages one by one until they have what they
wait for. `readResponse` fails at the deadline; `waitForDiagnostics` then answers with the last
diagnostics it saw, if it saw any. A time that fits the clock can be waited for, however long it is.
-/

namespace Latency.Session

variable {τ : Type} [Clock τ]

def readUntil (id : Json) (deadline : τ) (s : Session τ) : Except SessionError Json × Session τ :=
  let remaining := Clock.sub deadline s.clock
  if Clock.upTo remaining Clock.zero then (.error .timeout, s)
  else
    match _h : s.receive remaining with
    | (.error e, next) => (.error e, next)
    | (.ok m, next) =>
      if answers id m then (.ok m, next) else readUntil id deadline (next.observe m)
termination_by s.supply
decreasing_by
  rw [supply_observe]
  exact supply_receive_ok _h

def readResponse (id : Json) (timeout : τ) (s : Session τ) : Except SessionError Json × Session τ :=
  if Clock.fits timeout then s.readUntil id (Clock.add s.clock timeout) else (.error .endless, s)

def atDeadline (last : Option (Diagnostics τ)) : Except SessionError (Diagnostics τ) :=
  match last with
  | some info => .ok info
  | none => .error .timeout

/-- Takes messages until one lists diagnostics or the deadline has passed. When a receive runs out
its time and rounding has left the clock short of the deadline, it is tried again, `retries` times
at most. -/
def diagnosticsUntil (start deadline : τ) (retries : Nat) (last : Option (Diagnostics τ))
    (s : Session τ) : Except SessionError (Diagnostics τ) × Session τ :=
  let remaining := Clock.sub deadline s.clock
  if Clock.upTo remaining Clock.zero then (atDeadline last, s)
  else
    match _h : s.receive remaining with
    | (.error .timeout, next) =>
      match retries with
      | 0 => (atDeadline last, next)
      | n + 1 => diagnosticsUntil start deadline n last next
    | (.error e, next) => (.error e, next)
    | (.ok m, next) =>
      match diagnosticsCount? m with
      | none => diagnosticsUntil start deadline retries last (next.observe m)
      | some count =>
        let info : Diagnostics τ := ⟨count, Clock.elapsed start next.clock, m⟩
        if 0 < count then (.ok info, next)
        else diagnosticsUntil start deadline retries (some info) next
termination_by s.supply + retries
decreasing_by
  · have bound := supply_receive s remaining
    rw [_h] at bound
    change next.supply ≤ s.supply at bound
    omega
  · rw [supply_observe]
    have := supply_receive_ok _h
    omega
  · have := supply_receive_ok _h
    omega

def waitForDiagnostics (timeout : τ) (s : Session τ) :
    Except SessionError (Diagnostics τ) × Session τ :=
  if Clock.fits timeout then s.diagnosticsUntil s.clock (Clock.add s.clock timeout) 2 none
  else (.error .endless, s)

end Latency.Session
